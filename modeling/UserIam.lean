import UserIam.CoAuth.AttributesHistory
import UserIam.CoAuth.FailedRegistration
import UserIam.CoAuth.FinishCount
import UserIam.CoAuth.FinishSuccess
import UserIam.CoAuth.OnFinishOnce
import UserIam.CoAuth.PropertyRelay
import UserIam.CoAuth.RejectedMessage
import UserIam.CoAuth.ScheduleStart
import UserIam.CoAuth.ScheduleTimer
import UserIam.Common.ServiceRecovery
import UserIam.Common.ThreadSpec
import UserIam.Common.ThreadTransaction
import UserIam.Executors.AcquirePath
import UserIam.Executors.DriverSweep
import UserIam.Executors.HonestResult
import UserIam.Executors.OneOutcome
import UserIam.Executors.PropertyValue
import UserIam.Executors.Registration
import UserIam.Executors.ScheduledTemplates
import UserIam.Executors.StartOrFinish
import UserIam.Executors.TemplateFreeze
import UserIam.Executors.TokenPath
import UserIam.UserAuth.Confinement
import UserIam.UserAuth.FailedRequest
import UserIam.UserAuth.NoLateProgress
import UserIam.UserAuth.OpenContext
import UserIam.UserAuth.PropertyCodes
import UserIam.UserAuth.VerdictSound
import UserIam.UserIDM.AccessControl
import UserIam.UserIDM.CancelAuthority
import UserIam.UserIDM.CommitOnce
import UserIam.UserIDM.DeletionResult
import UserIam.UserIDM.EditSession
import UserIam.UserIDM.GetInfoIpc
import UserIam.UserIDM.ModifyResult
import UserIam.UserIDM.OneEnrolment
import UserIam.UserIDM.SecInfoIpc
import UserIam.UserIDM.StaleFinish
import UserIam.UserIDM.StubRefinement
