/-!
Command lines for pasting into a shell. A word of safe characters stands bare; any other word stands
in single quotes, and a single quote inside it is written as a quoted piece of its own. `split` is
the shell's own way of cutting a command line into words, over blanks, backslashes and the two kinds
of quotes.
-/

namespace Conductor.Shell

/-- Characters that can stand in a word without quotes: ASCII letters and digits and a few marks. -/
def isSafe (c : Char) : Bool :=
  c.isAlphanum || "_@%+=:,./-".toList.contains c

/-- The inside of a single-quoted word. -/
def quoteBody : List Char → List Char
  | [] => []
  | c :: rest =>
    if c = '\'' then ['\'', '"', '\'', '"', '\''] ++ quoteBody rest else c :: quoteBody rest

def quoteChars (word : List Char) : List Char :=
  if word.isEmpty then ['\'', '\'']
  else if word.all isSafe then word
  else '\'' :: (quoteBody word ++ ['\''])

def quote (word : String) : String :=
  String.ofList (quoteChars word.toList)

/-- The command line that runs the given words. -/
def join (words : List String) : String :=
  String.intercalate " " (words.map quote)

/-- Where the reader of a command line stands. -/
inductive Mode where
  /-- Outside of quotes. -/
  | bare
  /-- After a backslash outside of quotes. -/
  | escaped
  | single
  | double
  /-- After a backslash in double quotes. -/
  | doubleEscaped
  deriving DecidableEq, Repr

/-- The blanks between words. -/
def isSpace (c : Char) : Bool := c == ' ' || c == '\t'

/-- Whether a shell acts on a bare character: it would end, join or redirect commands, or expand
something. A comment and the name of a home directory have to start a word. -/
def isActive (startsWord : Bool) (c : Char) : Bool :=
  "|&;<>()$`*?[\n".toList.contains c || (startsWord && "#~".toList.contains c)

/-- Whether something is expanded between double quotes. -/
def isExpanded (c : Char) : Bool := "$`".toList.contains c

/-- The characters that a backslash keeps from having a meaning between double quotes. -/
def isEscapable (c : Char) : Bool := "$`\"\\".toList.contains c

/-- Adds a character to the unfinished word, or starts a word with it. -/
def push (c : Char) (word : Option (List Char)) : Option (List Char) :=
  some (c :: word.getD [])

/-- Quotes start a word also if nothing stands between them. -/
def begun (word : Option (List Char)) : Option (List Char) := some (word.getD [])

def finished (word : Option (List Char)) : List (List Char) := (word.map List.reverse).toList

/-- Words of a command line. `word` holds the characters of the unfinished word, the last one first;
between two words there is none. A line on which the shell would act in any other way than by
cutting it into words and removing quotes is refused, and so is one that ends inside of quotes or
after a backslash. -/
def splitFrom (mode : Mode) (word : Option (List Char)) : List Char → Option (List (List Char))
  | [] => if mode = .bare then some (finished word) else none
  | c :: rest =>
    match mode with
    | .bare =>
      if isSpace c then (splitFrom .bare none rest).map (finished word ++ ·)
      else if c = '\'' then splitFrom .single (begun word) rest
      else if c = '"' then splitFrom .double (begun word) rest
      else if c = '\\' then splitFrom .escaped word rest
      else if isActive word.isNone c then none
      else splitFrom .bare (push c word) rest
    | .escaped => splitFrom .bare (if c = '\n' then word else push c word) rest
    | .single =>
      if c = '\'' then splitFrom .bare word rest else splitFrom .single (push c word) rest
    | .double =>
      if c = '"' then splitFrom .bare word rest
      else if c = '\\' then splitFrom .doubleEscaped word rest
      else if isExpanded c then none
      else splitFrom .double (push c word) rest
    | .doubleEscaped =>
      if c = '\n' then splitFrom .double word rest
      else if isEscapable c then splitFrom .double (push c word) rest
      else splitFrom .double (push c (push '\\' word)) rest

/-- The words of a command line that does nothing but name words. -/
def split (line : String) : Option (List String) :=
  (splitFrom .bare none line.toList).map (·.map String.ofList)

end Conductor.Shell
