/-!
# Command lines cut into words

A command is cut at spaces, tabs and line feeds. Single quotes keep everything, double quotes keep
everything but a backslash in front of a few characters, and a backslash outside quotes keeps the
next character. A word may be made of several such pieces. A `#` where a word could start begins a
comment up to the end of the line.
-/

namespace ClangLens.Words

/-- Where in a command the next character stands. -/
inductive Place where
  | between
  | comment
  /-- In a word, outside quotes. -/
  | bare
  | single
  | double
deriving DecidableEq

/-- The characters that end a word. -/
def isBlank (c : Char) : Bool := c = ' ' || c = '\t' || c = '\n'

/-- The characters that a backslash keeps between double quotes. -/
def isKept (c : Char) : Bool := c = '$' || c = '\x60' || c = '"' || c = '\\'

/-- The words of the rest of a command, of which the word at hand is read so far, last character
first. There are none if a quote is not closed. -/
def scan (place : Place) (word : List Char) : List Char → Option (List String)
  | [] =>
    match place with
    | .between | .comment => some []
    | .bare => some [String.ofList word.reverse]
    | .single | .double => none
  | c :: rest =>
    match place with
    | .between =>
      if c = '\'' then scan .single [] rest
      else if c = '"' then scan .double [] rest
      else if isBlank c then scan .between [] rest
      else if c = '#' then scan .comment [] rest
      else if c = '\\' then
        match rest with
        | [] => some ["\\"]
        | d :: rest => if d = '\n' then scan .between [] rest else scan .bare [d] rest
      else scan .bare [c] rest
    | .comment => if c = '\n' then scan .between [] rest else scan .comment [] rest
    | .bare =>
      if c = '\'' then scan .single word rest
      else if c = '"' then scan .double word rest
      else if isBlank c then (scan .between [] rest).map (String.ofList word.reverse :: ·)
      else if c = '\\' then
        match rest with
        | [] => some [String.ofList (c :: word).reverse]
        | d :: rest => if d = '\n' then scan .bare word rest else scan .bare (d :: word) rest
      else scan .bare (c :: word) rest
    | .single => if c = '\'' then scan .bare word rest else scan .single (c :: word) rest
    | .double =>
      if c = '"' then scan .bare word rest
      else if c = '\\' then
        match rest with
        | [] => none
        | d :: rest =>
          if d = '\n' then scan .double word rest
          else if isKept d then scan .double (d :: word) rest
          else scan .double (d :: c :: word) rest
      else scan .double (c :: word) rest

/-- The words of a command. -/
def split (command : String) : Option (List String) := scan .between [] command.toList

end ClangLens.Words
