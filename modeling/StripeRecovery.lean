import StripeRecovery.Scenario
import StripeRecovery.Scenario.Buffers
import StripeRecovery.Scenario.Damage
import StripeRecovery.Scenario.Listeners
import StripeRecovery.Scenario.Roster
import StripeRecovery.Settings.Yaml
import StripeRecovery.Event
import StripeRecovery.Log
import StripeRecovery.Proofs.Erasures
import StripeRecovery.Proofs.Decision
import StripeRecovery.Proofs.Lifecycle
import StripeRecovery.Proofs.Serving
import StripeRecovery.Proofs.Commons
import StripeRecovery.Proofs.Decodable
import StripeRecovery.Proofs.DecodeOnce
import StripeRecovery.Proofs.Reserved
import StripeRecovery.Proofs.Dispatch
import StripeRecovery.Proofs.Late
import StripeRecovery.Proofs.Accounting
import StripeRecovery.Proofs.Unseen
import StripeRecovery.Proofs.ShortChunks
import StripeRecovery.Proofs.Canonical
import StripeRecovery.Proofs.Terms
import StripeRecovery.Proofs.Determined
import StripeRecovery.Proofs.Tiling
import StripeRecovery.Proofs.Covering
import StripeRecovery.Proofs.Validity
import StripeRecovery.Proofs.Histories
import StripeRecovery.Proofs.SizeClasses
import StripeRecovery.Proofs.Recycling
import StripeRecovery.Proofs.Padding
