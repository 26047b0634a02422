import LarpBot.Application.ConversationCore
import LarpBot.Laws.Deliveries
import LarpBot.Foundation.Program
import LarpBot.Foundation.Table
import LarpBot.Foundation.Ranking
import LarpBot.Laws.OpeningBroadcast
import LarpBot.Laws.QueueOrder
import LarpBot.Laws.Retries
import LarpBot.Laws.TelegramHandles
import LarpBot.Laws.QuestionRosters
import LarpBot.Laws.ClosingSchedules
import LarpBot.Laws.StatisticsFailures
import LarpBot.Laws.ClosingFailures
import LarpBot.Laws.Reopenings
import LarpBot.Laws.OrphanLeaders
import LarpBot.Laws.TransactionLimits
import LarpBot.Laws.QueueTimes
import LarpBot.Laws.GrantedRoles
import LarpBot.Laws.TablePaths
import LarpBot.Laws.InviteLinks
import LarpBot.Laws.UploadCompletions
import LarpBot.Laws.RegistrationOpenings
import LarpBot.Laws.LinkedProfiles
import LarpBot.Laws.BulkSnapshots
import LarpBot.Foundation.Traces
import LarpBot.Foundation.Timestamps
import LarpBot.Laws.GatewayReplies
import LarpBot.Laws.ShowcaseWorkbooks
import LarpBot.Laws.QueueMessages
import LarpBot.Laws.RegistrationBackends
import LarpBot.Laws.LifecycleBackends
import LarpBot.Foundation.Components
import LarpBot.Laws.WishColors
import LarpBot.Laws.MenuAvailability
import LarpBot.Laws.PassTables
import LarpBot.Laws.StatisticsCredits
import LarpBot.Laws.UploadRetries
import LarpBot.Laws.ReservePromotions
import LarpBot.Laws.MessageLengths
import LarpBot.Laws.SignupLinks
import LarpBot.Laws.PromotionOffers
import LarpBot.Laws.LinkSpellings
import LarpBot.Laws.ProfileDialogs
import LarpBot.Foundation.Worksheets
import LarpBot.Adapters.StatisticsWorkbooks
import LarpBot.Laws.WorkbookRuns
import LarpBot.Laws.ConfirmationSifts
import LarpBot.Laws.PromotionTrades
import LarpBot.Foundation.Resumption
import LarpBot.Application.OrderedWorker
import LarpBot.Adapters.LambdaBatches
import LarpBot.Laws.WorkerRuns
import LarpBot.Laws.WorkerBatches
