import Paymaster.Main
import Paymaster.Reserve.Rehearsal
import Paymaster.Proofs.Reserve.Lives
import Paymaster.Proofs.Reserve.Cooldown
import Paymaster.Proofs.Reserve.WaitCoherence
import Paymaster.Proofs.Reserve.WaitOutcome
import Paymaster.Proofs.RateLimit.FixedWindow
import Paymaster.Proofs.RateLimit.Isolation
import Paymaster.Proofs.Quote.SignedReply
import Paymaster.Proofs.Quote.MarketRate
import Paymaster.Proofs.Quote.Precedence
import Paymaster.Proofs.Quote.TurnedAway
import Paymaster.Proofs.Reserve.Accounts
import Paymaster.Proofs.Reserve.ConfirmedOnce
import Paymaster.Proofs.Reserve.ClaimSecret
import Paymaster.Proofs.Reserve.ReadyVerdict
import Paymaster.Proofs.Reserve.TopUp
import Paymaster.Proofs.Reserve.Shutdown
import Paymaster.Proofs.Quote.Counters
import Paymaster.Proofs.Quote.InternalError
import Paymaster.Proofs.Reserve.TickVerdict
import Paymaster.Proofs.Reserve.AtomicSave
import Paymaster.Proofs.Reserve.WrittenFormat
import Paymaster.Proofs.Quote.Opening
import Paymaster.Proofs.RateLimit.RetryAfter
import Paymaster.Proofs.Http.QueryString
import Paymaster.Proofs.Reserve.ResumedWait
import Paymaster.Proofs.Access.Admission
import Paymaster.Proofs.Settings.References
import Paymaster.Proofs.Secret.Confined
import Paymaster.Proofs.Text.AddressText
import Paymaster.Proofs.Rollup.BalanceValues
import Paymaster.Proofs.Quote.SignedBytes
import Paymaster.Proofs.Quote.PriceLaws
import Paymaster.Proofs.Reserve.DualRead
import Paymaster.Proofs.Reserve.FailingReads
