import OpenDefender.Engine.ActivationGate
import OpenDefender.Engine.ReportedCategory
import OpenDefender.Engine.PolicyStatements
import OpenDefender.Reclass.Dispatch
import OpenDefender.System.Inheritance
import OpenDefender.System.ScopeInvalidation
import OpenDefender.System.PolicyPropagation
import OpenDefender.System.ActivationPropagation
import OpenDefender.System.OverrideCalls
import OpenDefender.System.ActivationRefresh
import OpenDefender.System.ActivePolicy
import OpenDefender.System.PolicyPublication
import OpenDefender.System.PolicyVersions
import OpenDefender.System.AcceptedRules
import OpenDefender.System.ProtectedUser
import OpenDefender.System.PolicyAdmins
import OpenDefender.System.Identity
import OpenDefender.System.Passwords
import OpenDefender.System.LoginNames
import OpenDefender.System.SessionLimit
import OpenDefender.System.SingleUse
import OpenDefender.System.Lockout
import OpenDefender.System.CredentialChange
import OpenDefender.System.ServiceTokens
import OpenDefender.System.Acknowledgement
import OpenDefender.System.Requeues
import OpenDefender.System.Deduplication
import OpenDefender.System.FetchSkips
import OpenDefender.System.WaitingContent
import OpenDefender.System.ClassificationWriters
import OpenDefender.System.ReclassJobs
import OpenDefender.System.AncestorKeys
import OpenDefender.System.OverridePages
import OpenDefender.System.GroupPages
import OpenDefender.System.OverrideRoundTrip
import OpenDefender.System.PendingKeys
import OpenDefender.System.ClassificationRoundTrip
import OpenDefender.Worker.Budgets
import OpenDefender.Worker.MetadataOnly
import OpenDefender.Engine.Descendants
import OpenDefender.Common.Exceptions
import OpenDefender.Lib.JsonText
import OpenDefender.System.Flush
import OpenDefender.Worker.Output
import OpenDefender.Ingester.TrustedProxies
import OpenDefender.Worker.ResponseText
import OpenDefender.System.FetchKeys
import OpenDefender.Fetcher.Versions
