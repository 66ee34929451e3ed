/-!
# Lines

What is said to the user is a list of messages, each written with a line break
after it. A message may hold line breaks of its own, which break it into lines
like any other. A line break is a line feed, of which a carriage return right
before it is part; any other control character is text.
-/

namespace MazeDial

/-- The pieces of a text between its line feeds, empty ones included. -/
def breakLines : List Char → List (List Char)
  | [] => [[]]
  | symbol :: rest =>
    match breakLines rest with
    | [] => [[symbol]]
    | line :: lines =>
      if symbol = '\n' then [] :: line :: lines else (symbol :: line) :: lines

/-- A line without the carriage return that belongs to the line break after it. -/
def withoutReturn (line : List Char) : List Char :=
  if line.getLast? = some '\r' then line.dropLast else line

/-- The lines of some messages, each written with a line break after it. -/
def writtenLines (messages : List String) : List String :=
  messages.flatMap fun message =>
    (breakLines message.toList).map fun line => String.ofList (withoutReturn line)

end MazeDial
