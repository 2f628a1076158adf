import Uds.Layout
import Uds.View
import Uds.Constructors
import Uds.Ffi
import Uds.Reachable
import Uds.Raw
import Uds.Equality
import Uds.Observation
