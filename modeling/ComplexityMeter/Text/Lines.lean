/-!
# Line ends

A source text has its lines ended by line feeds only: a return, alone or before a line feed, is
read as one line feed.
-/

namespace ComplexityMeter.Text

def lineFeeds : List Char → List Char
  | [] => []
  | '\r' :: '\n' :: rest => '\n' :: lineFeeds rest
  | '\r' :: rest => '\n' :: lineFeeds rest
  | c :: rest => c :: lineFeeds rest

def withLineFeeds (s : String) : String :=
  String.ofList (lineFeeds s.toList)

end ComplexityMeter.Text
