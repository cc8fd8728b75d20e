import Xraytool.Proofs.Antifraud
import Xraytool.Proofs.AttachmentIsolation
import Xraytool.Proofs.BalancerRouting
import Xraytool.Proofs.BlobReferences
import Xraytool.Proofs.Blocks
import Xraytool.Proofs.Delivery
import Xraytool.Proofs.EngineRouting
import Xraytool.Proofs.Expiry
import Xraytool.Proofs.FraudReports
import Xraytool.Proofs.LogTail
import Xraytool.Proofs.OneAccount
import Xraytool.Proofs.Orphans
import Xraytool.Proofs.Otp
import Xraytool.Proofs.Payments
import Xraytool.Proofs.PluginMigrations
import Xraytool.Proofs.PromoCodes
import Xraytool.Proofs.Provisioning
import Xraytool.Proofs.ReferralCredits
import Xraytool.Proofs.Removal
import Xraytool.Proofs.Replication
import Xraytool.Proofs.RequestValues
import Xraytool.Proofs.ServerRouting
import Xraytool.Proofs.Sessions
import Xraytool.Proofs.SingBox
import Xraytool.Proofs.StateLock
import Xraytool.Proofs.SupportHub
import Xraytool.Proofs.SupportMigration
import Xraytool.Proofs.Traffic
import Xraytool.Proofs.XrayProcess
import Xraytool.Proofs.XraySync
