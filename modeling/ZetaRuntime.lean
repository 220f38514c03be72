import ZetaRuntime.Guarantee.Replay
import ZetaRuntime.Guarantee.Rebuild
import ZetaRuntime.Guarantee.Wakeups
import ZetaRuntime.Agent.Confinement
import ZetaRuntime.Agent.Recording
import ZetaRuntime.Guarantee.Memory
import ZetaRuntime.Host.LocalSocket
import ZetaRuntime.Guarantee.Draining
import ZetaRuntime.Guarantee.Completion
import ZetaRuntime.Dispatch.Glob
import ZetaRuntime.Ipc.RoundTrip
import ZetaRuntime.Agent.Sse
import ZetaRuntime.Guarantee.Dropping
import ZetaRuntime.Edit.Exact
import ZetaRuntime.Edit.Hunks
import ZetaRuntime.Ipc.Stateless
