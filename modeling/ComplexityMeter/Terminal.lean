import ComplexityMeter.Terminal.Drawing

/-!
# The terminal

A console for the command line: a terminal without colours, so wide that no line has to be broken.
It tells styles apart by their names, whatever these mean, and refuses only marks that end a style
which is not set.
-/

namespace ComplexityMeter.Terminal

def console : Command.Console where
  marked markup := (shown markup).map inLines
  unbroken markup := (shown markup).map inLines
  plain text := inLines (Emoji.replaceCodes text.toList)
  table := table
  screen := screen

end ComplexityMeter.Terminal
