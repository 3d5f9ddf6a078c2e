import BrowserFlow.Proofs.Interpolation
/-! Texts with their references filled in. The text of two parts is that of one part behind the other, as
long as no token lies across the boundary; and what is filled in is not looked through for tokens again. -/
set_option autoImplicit false

namespace BrowserFlow

open Json

namespace Meaning

end Meaning

namespace Expression

def filled (context : Context) : Expression → String
  | literal value => templateText value
  | lookup target => (Segment.reference target).render context
  | template segments => String.join (segments.map (Segment.render context))

def quoted : Reference := ⟨.input, ["x"]⟩

end Expression

end BrowserFlow
