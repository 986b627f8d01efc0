import Veritra.Soundness.CursorExpiry
import Veritra.Soundness.Listing
import Veritra.Soundness.Coordinator
import Veritra.Soundness.LegacyGroups
import Veritra.Soundness.Redaction
import Veritra.Soundness.Recovery
import Veritra.Soundness.Blobs
import Veritra.Soundness.MemberLimits
import Veritra.Soundness.ReadReceipts
import Veritra.Soundness.CallSignalling
import Veritra.Soundness.PushWakes
import Veritra.Soundness.BackupRecovery
import Veritra.Soundness.InstanceRestore
import Veritra.Soundness.GroupOwnership
import Veritra.Soundness.SilentOwner
import Veritra.Soundness.VerifiedBlobs
import Veritra.Soundness.KeyPackageWire
import Veritra.Soundness.Transcripts
import Veritra.Soundness.RecoveryKeyText
import Veritra.Soundness.SyncEngine
import Veritra.Soundness.TypingLimiter
