import LazGate.Sync.Pagination
import LazGate.Sync.Revocation
import LazGate.Sync.Agreement
import LazGate.Hysteria.Archive
import LazGate.Hysteria.Grammar
import LazGate.Hysteria.Registration
import LazGate.Hysteria.Scripts
import LazGate.Server.Auth.Invites
import LazGate.Server.Auth.Owners
import LazGate.Server.Auth.Passwords
import LazGate.Server.AmneziaSettings
import LazGate.Server.Deletion
import LazGate.Server.Finalization
import LazGate.Server.HysteriaSettings
import LazGate.Server.ReplyRouting
import LazGate.Server.Workers
import LazGate.Sync.Commands
import LazGate.Agent.Traffic
import LazGate.Agent.Termination
import LazGate.Amnezia.Allocation
import LazGate.Server.Auth.Lite
import LazGate.Server.Auth.RejectedRecovery
import LazGate.Agent.Upsert
import LazGate.Amnezia.Encoding
import LazGate.Amnezia.Install
import LazGate.Amnezia.Installer
import LazGate.Queue.Cleanup
import LazGate.Secrets
import LazGate.Server.StatusChanges
import LazGate.Lib.Calendar
import LazGate.Lib.Decimal
import LazGate.Server.Dashboard
