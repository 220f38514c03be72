import ZetaRuntime.Library.Ledger
import ZetaRuntime.Refinement.Abstraction

/-!
# What the journal says about waits and publications

A wait or a deferred publication is created by one fact and ended by another. The projection of the
fact that ends it finds its row open and closes it, so the journal has exactly one such fact for
every row that is closed and none for the others. A session has one active wait at most, because the
projection of a wait looks for another one.

An append that resolves to a retained fact therefore cannot be about a row that is open.
-/

namespace Zeta

open Outcome

variable {a b event : Event} {journal : List JournalEntry} {p p' : Projections}

/-- The handle of the wait a fact ends. -/
def Event.endsWait (event : Event) : Option String :=
  if eventKind event.eventType = .wait ∧ event.eventType ≠ "runtime.wait.created" then
    event.payload.text "handle"
  else none

/-- The handle of the deferred publication a fact ends. -/
def Event.endsPublication (event : Event) : Option String :=
  if eventKind event.eventType = .deferredPublication ∧
      event.eventType ≠ "runtime.deferred_publication.created" then
    event.payload.text "handle"
  else none

/-- Whether a wait can still be matched. -/
def WaitRow.isActive (row : WaitRow) : Bool := row.status = .active

/-- Whether a publication can still be published. -/
def DeferredPublicationRow.isOpen (row : DeferredPublicationRow) : Bool :=
  row.status = .pending || row.status = .claimed

/-- Waits and publications are ended once, and a session waits for one thing at a time. -/
structure Resources (s : Store) : Prop where
  waits : Ledger (fun entry : JournalEntry => entry.event.endsWait) WaitRow.isActive s.journal
    s.projections.waits
  publications : Ledger (fun entry : JournalEntry => entry.event.endsPublication)
    DeferredPublicationRow.isOpen s.journal s.projections.deferredPublications
  exclusive : ∀ a ∈ s.projections.waits, ∀ b ∈ s.projections.waits, a.status = .active →
    b.status = .active → a.sessionId = b.sessionId → a = b

theorem resources_empty : Resources .empty where
  waits := .nil
  publications := .nil
  exclusive := by simp [Store.empty, Projections.empty]

/-- What a fact ends depends on its type and texts only. -/
theorem Event.endsWait_congr (htype : a.eventType = b.eventType)
    (htext : ∀ field, a.payload.text field = b.payload.text field) : a.endsWait = b.endsWait := by
  simp only [Event.endsWait, htype, htext]

theorem Event.endsPublication_congr (htype : a.eventType = b.eventType)
    (htext : ∀ field, a.payload.text field = b.payload.text field) :
    a.endsPublication = b.endsPublication := by
  simp only [Event.endsPublication, htype, htext]

theorem Event.endsWait_eq_none (h : eventKind event.eventType ≠ .wait) : event.endsWait = none := by
  simp [Event.endsWait, h]

theorem Event.endsPublication_eq_none (h : eventKind event.eventType ≠ .deferredPublication) :
    event.endsPublication = none := by
  simp [Event.endsPublication, h]

/-! ### Projecting -/

/-- Ending a wait finds it active. -/
theorem indexWaitTerminal_ok {status : WaitStatus}
    (h : indexWaitTerminal journal event status p = .ok p') :
    ∃ row ∈ p.waits, ∃ matched, event.payload.text "handle" = some row.handle ∧
      row.status = .active ∧
      p' = { p with
        waits := p.waits.updateWhere (fun x => x.handle = row.handle && x.status = .active)
          (fun row => { row with
            status, matchedEventId := matched, terminalEventId := some event.id,
            updatedAt := event.timestampMs })
          (fun _ => rfl) } := by
  simp only [indexWaitTerminal, ok_iff, requiredRuntimeId_ok_iff] at h
  obtain ⟨handle, ⟨hhandle, -⟩, matched, -, _, -, _, -, _, hcount, rfl⟩ := h
  obtain ⟨row, hrow, hselected⟩ : ∃ row ∈ p.waits.rows,
      (decide (row.handle = handle) && decide (row.status = .active)) = true :=
    List.countP_pos_iff.mp (by rw [Table.countWhere] at hcount; omega)
  simp only [Bool.and_eq_true, decide_eq_true_eq] at hselected
  obtain ⟨rfl, hactive⟩ := hselected
  exact ⟨row, hrow, matched, hhandle, hactive, rfl⟩

/-- Ending a publication finds it open. -/
theorem indexDeferredPublicationTerminal_ok {status : DeferredPublicationStatus}
    (h : indexDeferredPublicationTerminal journal event status p = .ok p') :
    ∃ row ∈ p.deferredPublications, ∃ published, event.payload.text "handle" = some row.handle ∧
      row.isOpen = true ∧
      p' = { p with
        deferredPublications := p.deferredPublications.updateWhere
          (fun x => x.handle = row.handle && x.isOpen)
          (fun row => { row with
            status, publishedEventId := published, terminalEventId := some event.id,
            updatedAt := event.timestampMs })
          (fun _ => rfl) } := by
  simp only [indexDeferredPublicationTerminal, ok_iff, requiredRuntimeId_ok_iff] at h
  obtain ⟨handle, ⟨hhandle, -⟩, published, -, _, -, _, -, _, hcount, rfl⟩ := h
  obtain ⟨row, hrow, hselected⟩ : ∃ row ∈ p.deferredPublications.rows,
      (decide (row.handle = handle) && row.isOpen) = true :=
    List.countP_pos_iff.mp (by
      rw [Table.countWhere] at hcount
      exact hcount ▸ Nat.one_pos)
  simp only [Bool.and_eq_true, decide_eq_true_eq] at hselected
  obtain ⟨rfl, hopen⟩ := hselected
  exact ⟨row, hrow, published, hhandle, hopen, rfl⟩

section

variable [Platform] {s s' : Store} {event : Event}

/-- The journal after an event has been recorded, as far as texts and types go. -/
theorem Recorded.journal_eq (h : Recorded s event s') :
    ∃ entry : JournalEntry, s'.journal = s.journal ++ [entry] ∧ entry.event.id = event.id ∧
      entry.event.eventType = event.eventType ∧
      (∀ field, entry.event.payload.text field = event.payload.text field) ∧
      indexEvent s'.journal { event with cursor := some (nextCursor s.journal) } s.projections
        = .ok s'.projections := by
  obtain ⟨entry, -, hjournal, hback, hentry, hindex⟩ := h.entry
  refine ⟨entry.stored, hjournal, ?_, ?_, fun field => ?_, hentry ▸ hindex⟩
  · rw [hback.id_eq, hentry]
  · rw [hback.eventType_eq, hentry]
  · rw [hback.text_eq, hentry]

variable {journal entries : List JournalEntry} {p p' : Projections} {entry : JournalEntry}

/-- Projecting an event of another kind leaves waits alone. -/
theorem waits_of_indexEvent (h : indexEvent journal event p = .ok p')
    (hkind : eventKind event.eventType ≠ .wait) : p'.waits = p.waits := by
  have hframe := indexEvent_frame h
  cases hk : eventKind event.eventType <;> simp only [hk] at hframe
  case wait => exact absurd hk hkind
  case effect | deferredPublication | cancelRequested | ingress =>
    obtain ⟨_, rfl⟩ := hframe
    rfl
  case queueItem =>
    obtain ⟨_, _, _, rfl⟩ := hframe
    rfl
  case attempt =>
    obtain ⟨_, _, rfl⟩ := hframe
    rfl
  case unprojected => rw [hframe]

/-- Projecting an event of another kind leaves publications alone. -/
theorem deferredPublications_of_indexEvent (h : indexEvent journal event p = .ok p')
    (hkind : eventKind event.eventType ≠ .deferredPublication) :
    p'.deferredPublications = p.deferredPublications := by
  have hframe := indexEvent_frame h
  cases hk : eventKind event.eventType <;> simp only [hk] at hframe
  case deferredPublication => exact absurd hk hkind
  case effect | wait | cancelRequested | ingress =>
    obtain ⟨_, rfl⟩ := hframe
    rfl
  case queueItem =>
    obtain ⟨_, _, _, rfl⟩ := hframe
    rfl
  case attempt =>
    obtain ⟨_, _, rfl⟩ := hframe
    rfl
  case unprojected => rw [hframe]

/-- Recording an event of another kind leaves waits alone. -/
theorem Recorded.waits_eq (h : Recorded s event s') (hkind : eventKind event.eventType ≠ .wait) :
    s'.projections.waits = s.projections.waits := by
  obtain ⟨-, -, -, -, -, hindex⟩ := h.journal_eq
  exact waits_of_indexEvent hindex hkind

/-- Recording an event of another kind leaves publications alone. -/
theorem Recorded.deferredPublications_eq (h : Recorded s event s')
    (hkind : eventKind event.eventType ≠ .deferredPublication) :
    s'.projections.deferredPublications = s.projections.deferredPublications := by
  obtain ⟨-, -, -, -, -, hindex⟩ := h.journal_eq
  exact deferredPublications_of_indexEvent hindex hkind

/-- Recording the end of a wait. -/
theorem Recorded.waits_of_ends (h : Recorded s event s') {handle : String}
    (hends : event.endsWait = some handle) :
    ∃ row ∈ s.projections.waits, row.handle = handle ∧ row.status = .active ∧
      ∃ status matched, waitEnd event.eventType = some status ∧
        s'.projections.waits = s.projections.waits.updateWhere
          (fun x => x.handle = row.handle && x.status = .active)
          (fun row => { row with
            status, matchedEventId := matched, terminalEventId := some event.id,
            updatedAt := event.timestampMs })
          (fun _ => rfl) := by
  obtain ⟨-, -, -, -, -, hindex⟩ := h.journal_eq
  unfold Event.endsWait at hends
  split at hends
  · rename_i hkind
    simp only [indexEvent, hkind.1] at hindex
    rcases indexWait_cases hindex with ⟨hcreated, -⟩ | ⟨-, status, hwaitEnd, hend⟩
    · exact absurd hcreated hkind.2
    · obtain ⟨row, hrow, matched, hhandle, hactive, hp⟩ := indexWaitTerminal_ok hend
      exact ⟨row, hrow, Option.some.inj (hhandle.symm.trans hends), hactive, status, matched,
        hwaitEnd, congrArg Projections.waits hp⟩
  · cases hends

/-- Projecting a wait fact. -/
theorem waitLedger_of_indexEvent (hindex : indexEvent journal event p = .ok p')
    (hs : Resources ⟨entries, p⟩) (htype : entry.event.eventType = event.eventType)
    (htext : ∀ field, entry.event.payload.text field = event.payload.text field)
    (hkind : eventKind event.eventType = .wait) :
    Ledger (fun entry : JournalEntry => entry.event.endsWait) WaitRow.isActive (entries ++ [entry])
        p'.waits ∧
      ∀ a ∈ p'.waits, ∀ b ∈ p'.waits, a.status = .active → b.status = .active →
        a.sessionId = b.sessionId → a = b := by
  simp only [indexEvent, hkind] at hindex
  have hends : entry.event.endsWait = event.endsWait := Event.endsWait_congr htype htext
  rcases indexWait_cases hindex with ⟨hcreated, row, hread, hinsert⟩
    | ⟨hcreated, status, hwaitEnd, hend⟩
  · have hnone : entry.event.endsWait = none := by
      rw [hends, Event.endsWait, if_neg (by rintro ⟨-, hne⟩; exact hne hcreated)]
    have hactive := readWait_status hread
    simp only [insertWait, ok_iff] at hinsert
    obtain ⟨_, -, _, hothers, waits, hwaits, hp⟩ := hinsert
    rw [← hp]
    refine ⟨(hs.waits.insert? (by simp [WaitRow.isActive, hactive]) hwaits).note hnone, ?_⟩
    have hold : ∀ a ∈ p.waits, a.status = .active → a.sessionId ≠ row.sessionId :=
      fun a ha hactive' hsession => (hothers a ha).2 ⟨hsession, hactive'⟩
    intro a ha b hb hactive_a hactive_b hsession
    rw [Table.mem_of_insert? hwaits] at ha hb
    rcases ha with ha | rfl <;> rcases hb with hb | rfl
    · exact hs.exclusive a ha b hb hactive_a hactive_b hsession
    · exact absurd hsession (hold a ha hactive_a)
    · exact absurd hsession.symm (hold b hb hactive_b)
    · rfl
  · have hstatus : status ≠ .active := by
      rintro rfl
      exact waitEnd_ne_active _ hwaitEnd
    obtain ⟨row, hrow, matched, hhandle, hactive, hp⟩ := indexWaitTerminal_ok hend
    have hsome : entry.event.endsWait = some row.handle := by
      rw [hends, Event.endsWait, if_pos ⟨hkind, hcreated⟩]
      exact hhandle
    have hselected : ∀ x ∈ p.waits,
        (decide (x.handle = row.handle) && decide (x.status = .active)) = true ↔ x = row := by
      intro x hx
      simp only [Bool.and_eq_true, decide_eq_true_eq]
      constructor
      · rintro ⟨hkey, -⟩
        exact Table.eq_of_key_eq hx hrow hkey
      · rintro rfl
        exact ⟨rfl, hactive⟩
    rw [hp]
    have hclosed : ∀ x : WaitRow, ({ x with
        status, matchedEventId := matched, terminalEventId := some event.id,
        updatedAt := event.timestampMs } : WaitRow).isActive = false := by
      simp [WaitRow.isActive, hstatus]
    refine ⟨hs.waits.settle hsome hrow ?_ hselected ?_ ?_, ?_⟩
    · simp [WaitRow.isActive, hactive]
    · exact hclosed row
    · exact fun _ => rfl
    -- A row that is active now was active before, and is the same.
    have hold : ∀ a ∈ p.waits.updateWhere
        (fun x => decide (x.handle = row.handle) && decide (x.status = .active))
        (fun row => { row with
          status, matchedEventId := matched, terminalEventId := some event.id,
          updatedAt := event.timestampMs }) (fun _ => rfl),
        a.status = .active → a ∈ p.waits := by
      intro a ha hactive'
      obtain ⟨x, hx, rfl⟩ := Table.mem_updateWhere.mp ha
      split at hactive'
      · exact absurd hactive' hstatus
      · rename_i hne
        rwa [if_neg hne]
    intro a ha b hb hactive_a hactive_b
    exact hs.exclusive a (hold a ha hactive_a) b (hold b hb hactive_b) hactive_a hactive_b

/-- Projecting a publication fact. -/
theorem publicationLedger_of_indexEvent (hindex : indexEvent journal event p = .ok p')
    (hs : Resources ⟨entries, p⟩) (htype : entry.event.eventType = event.eventType)
    (htext : ∀ field, entry.event.payload.text field = event.payload.text field)
    (hkind : eventKind event.eventType = .deferredPublication) :
    Ledger (fun entry : JournalEntry => entry.event.endsPublication) DeferredPublicationRow.isOpen
      (entries ++ [entry]) p'.deferredPublications := by
  simp only [indexEvent, hkind] at hindex
  have hends : entry.event.endsPublication = event.endsPublication :=
    Event.endsPublication_congr htype htext
  have hended (hcreated : event.eventType ≠ "runtime.deferred_publication.created")
      {status : DeferredPublicationStatus} (hstatus : status ≠ .pending ∧ status ≠ .claimed)
      (hend : indexDeferredPublicationTerminal journal event status p = .ok p') :
      Ledger (fun entry : JournalEntry => entry.event.endsPublication) DeferredPublicationRow.isOpen
        (entries ++ [entry]) p'.deferredPublications := by
    obtain ⟨row, hrow, published, hhandle, hopen, hp⟩ := indexDeferredPublicationTerminal_ok hend
    have hsome : entry.event.endsPublication = some row.handle := by
      rw [hends, Event.endsPublication, if_pos ⟨hkind, hcreated⟩]
      exact hhandle
    have hselected : ∀ x ∈ p.deferredPublications,
        (decide (x.handle = row.handle) && x.isOpen) = true ↔ x = row := by
      intro x hx
      simp only [Bool.and_eq_true, decide_eq_true_eq]
      constructor
      · rintro ⟨hkey, -⟩
        exact Table.eq_of_key_eq hx hrow hkey
      · rintro rfl
        exact ⟨rfl, hopen⟩
    have hclosed : ∀ x : DeferredPublicationRow, ({ x with
        status, publishedEventId := published, terminalEventId := some event.id,
        updatedAt := event.timestampMs } : DeferredPublicationRow).isOpen = false := by
      simp [DeferredPublicationRow.isOpen, hstatus]
    rw [hp]
    refine hs.publications.settle hsome hrow hopen hselected ?_ ?_
    · exact hclosed row
    · exact fun _ => rfl
  unfold indexDeferredPublication at hindex
  split at hindex
  · rename_i hcreated
    obtain ⟨row, hread, hinsert⟩ := bind_ok_iff.mp hindex
    have hnone : entry.event.endsPublication = none := by
      rw [hends, Event.endsPublication, if_neg (by rintro ⟨-, hne⟩; exact hne hcreated)]
    simp only [insertDeferredPublication, ok_iff] at hinsert
    obtain ⟨_, -, _, -, publications, hpublications, hp⟩ := hinsert
    rw [← hp]
    exact (hs.publications.insert? (by
      simp [DeferredPublicationRow.isOpen, readDeferredPublication_status hread])
      hpublications).note hnone
  rename_i hcreated
  split at hindex
  · exact hended hcreated (by decide) hindex
  split at hindex
  · exact hended hcreated (by decide) hindex
  · cases hindex

/-- Projecting the event of an entry keeps both ledgers. -/
theorem resources_of_indexEvent (hindex : indexEvent journal event p = .ok p')
    (hs : Resources ⟨entries, p⟩) (htype : entry.event.eventType = event.eventType)
    (htext : ∀ field, entry.event.payload.text field = event.payload.text field) :
    Resources ⟨entries ++ [entry], p'⟩ := by
  have hwaits : Ledger (fun entry : JournalEntry => entry.event.endsWait) WaitRow.isActive
        (entries ++ [entry]) p'.waits ∧
      ∀ a ∈ p'.waits, ∀ b ∈ p'.waits, a.status = .active → b.status = .active →
        a.sessionId = b.sessionId → a = b := by
    by_cases hkind : eventKind event.eventType = .wait
    · exact waitLedger_of_indexEvent hindex hs htype htext hkind
    · rw [waits_of_indexEvent hindex hkind]
      refine ⟨hs.waits.note ?_, hs.exclusive⟩
      rw [Event.endsWait_congr htype htext, Event.endsWait_eq_none hkind]
  refine ⟨hwaits.1, ?_, hwaits.2⟩
  by_cases hkind : eventKind event.eventType = .deferredPublication
  · exact publicationLedger_of_indexEvent hindex hs htype htext hkind
  · rw [deferredPublications_of_indexEvent hindex hkind]
    refine hs.publications.note ?_
    rw [Event.endsPublication_congr htype htext, Event.endsPublication_eq_none hkind]

/-- Recording keeps both ledgers. -/
theorem Recorded.resources (h : Recorded s event s') (hs : Resources s) : Resources s' := by
  obtain ⟨entry, hjournal, -, htype, htext, hindex⟩ := h.journal_eq
  have hprojected := resources_of_indexEvent hindex hs htype htext
  rwa [← hjournal] at hprojected

omit [Platform] in
theorem Coordinated.resources (h : Coordinated s s') (hs : Resources s) : Resources s' where
  waits := by
    rw [h.journal, h.waits]
    exact hs.waits
  publications := by
    rw [h.journal, h.deferredPublications]
    exact hs.publications
  exclusive := by
    rw [h.waits]
    exact hs.exclusive

theorem Changes.resources {P : Event → Prop} (h : Changes P s s') (hs : Resources s) :
    Resources s' :=
  h.induct (fun _ _ _ _ hs hrecorded => hrecorded.resources hs) (fun _ _ hs hc => hc.resources hs)
    hs

/-- A rebuild ends nothing. -/
theorem Recovered.resources {rebuilt : Projections} (h : Recovered s.projections rebuilt)
    (hs : Resources s) : Resources ⟨s.journal, rebuilt⟩ where
  waits := by
    refine hs.waits.matches (fun r r' hr => ?_) h.waits
    obtain ⟨fields, -, rfl⟩ := hr
    exact ⟨rfl, rfl⟩
  publications := by
    refine hs.publications.matches (fun r r' hr => ?_) h.deferredPublications
    obtain ⟨payload, -, rfl⟩ := hr
    exact ⟨rfl, rfl⟩
  exclusive := by
    have hback : ∀ a ∈ rebuilt.waits, ∃ r ∈ s.projections.waits, ∃ fields,
        a = { r with fields } := by
      intro a ha
      obtain ⟨r, hr, fields, -, rfl⟩ := h.waits.symm.find?_some
        (fun r r' hr => by obtain ⟨_, -, rfl⟩ := hr; rfl) (Table.find?_of_mem ha)
      exact ⟨r, Table.mem_of_find? hr, fields, rfl⟩
    intro a ha b hb hactive_a hactive_b hsession
    obtain ⟨r, hr, fields, rfl⟩ := hback a ha
    obtain ⟨x, hx, fields', rfl⟩ := hback b hb
    obtain rfl := hs.exclusive r hr x hx hactive_a hactive_b hsession
    exact Table.eq_of_key_eq ha hb rfl

/-- Every authentic operation keeps both ledgers. -/
theorem Resources.apply [LawfulFloatText] (hs : Resources s) (hhistory : History s) {op : Op}
    (hop : op.Authentic) : Resources (apply s op) := by
  refine apply_induction hs (fun _ hreplay => (hhistory.recovered hreplay).resources hs) ?_
  exact fun hrebuild => (Op.changes hhistory.unreserved hop hrebuild).resources hs

end

end Zeta
