import Invalidation.Json.Reader
import Invalidation.Json.Writer
import Invalidation.Proofs.Run.Again
import Invalidation.Proofs.Run.Contracts
import Invalidation.Proofs.Run.Destruction
import Invalidation.Proofs.Run.Final
import Invalidation.Proofs.Run.GivingUp
import Invalidation.Proofs.Run.Groups
import Invalidation.Proofs.Run.Interrupted
import Invalidation.Proofs.Run.Lookups
import Invalidation.Proofs.Run.Pairing
import Invalidation.Proofs.Run.Reentry
import Invalidation.Proofs.Run.Release
import Invalidation.Proofs.Run.Rounds
import Invalidation.Proofs.Run.Standing
import Invalidation.Proofs.Run.Twin
import Invalidation.Proofs.Run.Untraced
import Invalidation.Proofs.Run.Write
import Invalidation.Proofs.Scenario.Counters
import Invalidation.Proofs.Scenario.Placement
import Invalidation.Proofs.Settings.Grammar
import Invalidation.Proofs.Settings.Neutral
import Invalidation.Proofs.Settings.Precedence
import Invalidation.Proofs.Settings.Reloading
import Invalidation.Proofs.WatchList.Arena
import Invalidation.Proofs.WatchList.Keyed
import Invalidation.Scenario.Perform
import Invalidation.Settings.Script
import Invalidation.WatchList.Script
