import TagSim.Runs.Machine
import TagSim.Runs.Proofs.MachineProofs
import TagSim.Transfer.Channel
import TagSim.Transfer.Proofs.ChannelProofs
import TagSim.Ownership.Ledger
import TagSim.Ownership.Proofs.LedgerProofs
import TagSim.Memory.Linked
import TagSim.Memory.Proofs.LinkedProofs
import TagSim.Util.Status
import TagSim.Epoll.Kernel
import TagSim.Epoll.Proactor
import TagSim.Epoll.History
import TagSim.Epoll.Proofs.HistoryProofs
import TagSim.Epoll.Proofs.KernelProofs
import TagSim.Epoll.Proofs.StepProofs
import TagSim.Epoll.Proofs.RegistryProofs
import TagSim.Epoll.Proofs.SendingProofs
import TagSim.Epoll.Proofs.SendStreamProofs
import TagSim.Epoll.Proofs.AddresseeProofs
import TagSim.Epoll.Proofs.RemotePeersProofs
import TagSim.Epoll.Proofs.InterestProofs
import TagSim.Epoll.Proofs.ReentrantSendProofs
import TagSim.Epoll.Proofs.OwnershipProofs
import TagSim.Kevent.Proactor
import TagSim.Kevent.History
import TagSim.Kevent.Proofs.StepProofs
import TagSim.Kevent.Proofs.DatagramProofs
import TagSim.Kevent.Proofs.DisposeProofs
import TagSim.Kevent.Proofs.CloseProofs
import TagSim.Kevent.Proofs.AcceptProofs
import TagSim.Iocp.History
import TagSim.Iocp.Proofs.StepProofs
import TagSim.Iocp.Proofs.ReceiveProofs
import TagSim.Iocp.Proofs.SendProofs
import TagSim.Epoll.Proofs.ThreadsProofs
import TagSim.Iocp.Proofs.StopProofs
import TagSim.Epoll.Proofs.RouteProofs
import TagSim.Bytes.LittleEndian
import TagSim.Bytes.Proofs.LittleEndianProofs
import TagSim.Util.Buf
import TagSim.Util.Proofs.BufProofs
import TagSim.Kevent.Proofs.StatusProofs
import TagSim.Kevent.Proofs.WakeProofs
import TagSim.Kevent.Proofs.TickProofs
import TagSim.Kevent.Proofs.TeardownProofs
import TagSim.Timing.Proofs.SpacedProofs
import TagSim.Kevent.Proofs.TimedProofs
import TagSim.Text.CString
import TagSim.Text.HexDump
import TagSim.Text.Proofs.CStringProofs
import TagSim.Text.Proofs.HexDumpProofs
import TagSim.Util.Debug
import TagSim.Util.Proofs.DumpProofs
import TagSim.Util.Proofs.VerbosityProofs
import TagSim.Runs.Proofs.TransducerProofs
import TagSim.Util.Proofs.ShimsProofs
import TagSim.Util.Proofs.TimeUtilsProofs
import TagSim.Epoll.Heap
import TagSim.Epoll.Proofs.DanglingProofs
import TagSim.Epoll.Proofs.DeafProofs
import TagSim.Epoll.Proofs.StopProofs
import TagSim.Iocp.Proofs.LoopProofs
import TagSim.Iocp.Proofs.MemoryProofs
import TagSim.Kevent.Threads
import TagSim.Kevent.Proofs.LoopProofs
import TagSim.Epoll.Proofs.ProtocolProofs
import TagSim.Epoll.Proofs.SpinProofs
import TagSim.Iocp.Lifecycle
import TagSim.Iocp.Proofs.LifecycleProofs
import TagSim.Kevent.Proofs.SafetyProofs
import TagSim.Util.Proofs.DumpSafetyProofs
import TagSim.Util.Proofs.InPlaceProofs
import TagSim.Util.Proofs.IntervalProofs
import TagSim.Epoll.Proofs.ProgressProofs
import TagSim.Epoll.Proofs.WakeProofs
import TagSim.Kevent.Proofs.ChunksProofs
import TagSim.Kevent.Proofs.LeakProofs
