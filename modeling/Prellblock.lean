import Prellblock.Basic
import Prellblock.Env
import Prellblock.State
import Prellblock.Follower
import Prellblock.Node
import Prellblock.Checks
import Prellblock.Outcomes
import Prellblock.Censorship
import Prellblock.Invariant
import Prellblock.Effect
import Prellblock.Rounds
import Prellblock.Chain
import Prellblock.NonEquivocation
import Prellblock.Reorder
import Prellblock.Progress
import Prellblock.Redelivery
import Prellblock.Faults
import Prellblock.Network
import Prellblock.Agreement
import Prellblock.Framing
