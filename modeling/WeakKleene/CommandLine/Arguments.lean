import WeakKleene.Text.Digit
import WeakKleene.Text.Quoted

namespace WeakKleene
namespace CommandLine

/-!
Options and arguments on a command line.

An option may be written by any beginning of its long name that no other
option shares, and its value may follow in the same word or in the next one.
Options of one letter that take no value may share a hyphen with what follows
them.  What stands after a double hyphen is no option, and a double hyphen in
the place of a value leaves the value empty, as a list without items.  Where an
argument is accepted it may be left out, and it may stand anywhere among the
options.
-/

/-- What an option takes: nothing, a value, which must be one of the choices if there are any, or
nothing because it ends the program. -/
inductive Takes where
  | nothing
  | value (choices : List String)
  | exit
deriving DecidableEq, Repr

structure OptionSpec where
  names : List String
  takes : Takes
deriving DecidableEq, Repr

namespace OptionSpec

def label (option : OptionSpec) : String := String.intercalate "/" option.names

def key (option : OptionSpec) : String := option.names.headD ""

def takesValue (option : OptionSpec) : Bool := option.takes matches .value _

end OptionSpec

inductive UsageError where
  | ambiguous (word : String) (candidates : List String)
  | expectedValue (option : String)
  | invalidChoice (option value : String) (choices : List String)
  | ignoredValue (option value : String)
  | unrecognized (words : List String)
deriving DecidableEq, Repr

namespace UsageError

def message : UsageError -> String
  | ambiguous word candidates =>
    "ambiguous option: " ++ word ++ " could match " ++ String.intercalate ", " candidates
  | expectedValue option => "argument " ++ option ++ ": expected one argument"
  | invalidChoice option value choices =>
    "argument " ++ option ++ ": invalid choice: " ++ Text.quoted value ++ " (choose from " ++
      String.intercalate ", " (choices.map Text.quoted) ++ ")"
  | ignoredValue option value =>
    "argument " ++ option ++ ": ignored explicit argument " ++ Text.quoted value
  | unrecognized words => "unrecognized arguments: " ++ String.intercalate " " words

end UsageError

abbrev NamedOption := String × OptionSpec

inductive Word where
  | plain (text : String)
  | separator
  | option (named : NamedOption) (value : Option String)
  | unknown (text : String)

def allNames (options : List OptionSpec) : List NamedOption :=
  options.flatMap fun option => option.names.map fun name => (name, option)

def optionNamed? (options : List OptionSpec) (name : String) : Option OptionSpec :=
  (allNames options).lookup name

/-- A word cut at its first equals sign. -/
def cutAtEquals (word : List Char) : List Char × Option String :=
  match word.dropWhile (· != '=') with
  | _ :: value => (word.takeWhile (· != '='), some (String.ofList value))
  | [] => (word, none)

/-- The options that a word may abbreviate, with the value in the word. -/
def candidates (options : List OptionSpec) (word : List Char) :
    List (NamedOption × Option String) :=
  match word with
  | '-' :: '-' :: _ =>
    let (start, value) := cutAtEquals word
    ((allNames options).filter fun (name, _) => start.isPrefixOf name.toList).map fun found =>
      (found, value)
  | _ =>
    (allNames options).filterMap fun (name, option) =>
      if name.toList == word.take 2 then
        some ((name, option), some (String.ofList (word.drop 2)))
      else if word.isPrefixOf name.toList then some ((name, option), none)
      else none

/-- Whether characters are decimal digits, at least one, up to a line feed that may end them. -/
def areDigits (chars : List Char) : Bool :=
  let (digits, rest) := chars.span Text.isDecimal
  !digits.isEmpty && (rest.isEmpty || rest == ['\n'])

/-- Whether a word is a negative number, whole or with a point in it. -/
def isNegativeNumber : List Char -> Bool
  | '-' :: rest =>
    areDigits rest || match rest.dropWhile Text.isDecimal with
      | '.' :: fraction => areDigits fraction
      | _ => false
  | _ => false

/-- What a word before any double hyphen is taken for. -/
def classifyWord (options : List OptionSpec) (word : String) : Except UsageError Word :=
  let chars := word.toList
  let (front, value) := cutAtEquals chars
  match chars with
  | [] | ['-'] => .ok (.plain word)
  | '-' :: _ =>
    let name := String.ofList front
    match optionNamed? options word, value, optionNamed? options name with
    | some option, _, _ => .ok (.option (word, option) none)
    | none, some value, some option => .ok (.option (name, option) (some value))
    | none, _, _ =>
      match candidates options chars with
      | [(named, value)] => .ok (.option named value)
      | [] =>
        if isNegativeNumber chars || chars.contains ' ' then .ok (.plain word)
        else .ok (.unknown word)
      | several => .error (.ambiguous word (several.map fun candidate => candidate.1.1))
  | _ => .ok (.plain word)

def classify (options : List OptionSpec) : List String -> Except UsageError (List Word)
  | [] => .ok []
  | "--" :: rest => .ok (.separator :: rest.map Word.plain)
  | word :: rest => do
      let first <- classifyWord options word
      return first :: (<- classify options rest)

/-- The options behind one hyphen, of which the first is followed by the given characters.  What
follows an option that takes a value is its value. -/
def sharedHyphen (options : List OptionSpec) (option : OptionSpec) :
    List Char -> Except UsageError (List (OptionSpec × Option String))
  | [] => .ok [(option, none)]
  | c :: rest =>
    if option.takesValue then .ok [(option, some (String.ofList (c :: rest)))]
    else
      match optionNamed? options (String.ofList ['-', c]) with
      | some next => do return (option, none) :: (<- sharedHyphen options next rest)
      | none => .error (.ignoredValue option.label (String.ofList (c :: rest)))

def isShort (name : String) : Bool := name.toList[1]? != some '-'

/-- The options that a word names, with the values in the word. -/
def namedOptions (options : List OptionSpec) (named : NamedOption) (value : Option String) :
    Except UsageError (List (OptionSpec × Option String)) :=
  let (name, option) := named
  match value with
  | none => .ok [(option, none)]
  | some value =>
    if option.takesValue then .ok [(option, some value)]
    else if isShort name && !value.isEmpty then sharedHyphen options option value.toList
    else .error (.ignoredValue option.label value)

/-- What was given on a command line: options with their values, where a value may have been left
empty, the argument, and whether an option ended the program. -/
structure Given where
  settings : List (String × Option String)
  argument : Option String
  exit : Option String
deriving DecidableEq, Repr

namespace Given

def empty : Given := ⟨[], none, none⟩

def set (given : Given) (option : OptionSpec) (value : Option String) : Given :=
  { given with
    settings := (option.key, value) :: given.settings.filter fun entry => entry.1 != option.key }

def has (given : Given) (name : String) : Bool := given.settings.any fun entry => entry.1 == name

/-- The value of an option, or a default.  There is none if it was left empty. -/
def value? (given : Given) (name default : String) : Option String :=
  (given.settings.lookup name).getD (some default)

end Given

/-- Keep a value that is among the choices of its option. -/
def setChecked (given : Given) (option : OptionSpec) (choices : List String) (value : String) :
    Except UsageError Given :=
  if value == "--" then .ok (given.set option none)
  else if choices.isEmpty || choices.contains value then .ok (given.set option (some value))
  else .error (.invalidChoice option.label value choices)

/-- Keep options one by one, up to one that ends the program. -/
def setAll (given : Given) : List (OptionSpec × Option String) -> Except UsageError Given
  | [] => .ok given
  | (option, value) :: rest =>
    match option.takes with
    | .exit => .ok { given with exit := some option.key }
    | .nothing => setAll (given.set option none) rest
    | .value choices => do setAll (<- setChecked given option choices (value.getD "")) rest

/-- The option that still needs a value, if the last of some does. -/
def needy? (named : List (OptionSpec × Option String)) : Option OptionSpec :=
  match named.getLast? with
  | some (option, none) => if option.takesValue then some option else none
  | _ => none

/-- Take the words from left to right.  `awaiting` tells whether the argument may still come, and
`extras` are the words that nothing takes. -/
def take (options : List OptionSpec) (given : Given) (awaiting : Bool) (extras : List String) :
    List Word -> Except UsageError Given
  | [] => if extras.isEmpty then .ok given else .error (.unrecognized extras)
  | .unknown word :: rest => take options given awaiting (extras ++ [word]) rest
  | .option named value :: rest => do
      let found <- namedOptions options named value
      match needy? found, rest with
      | none, rest =>
        let given <- setAll given found
        if given.exit.isSome then return given else take options given awaiting extras rest
      | some option, .plain value :: rest =>
        let given <- setAll given (found.dropLast ++ [(option, some value)])
        if given.exit.isSome then return given else take options given awaiting extras rest
      | some option, _ => .error (.expectedValue option.label)
  | .plain word :: .separator :: rest =>
    if awaiting then take options { given with argument := some word } false extras rest
    else take options given false (extras ++ [word, "--"]) rest
  | .plain word :: rest =>
    if awaiting then take options { given with argument := some word } false extras rest
    else take options given false (extras ++ [word]) rest
  | .separator :: .plain word :: rest =>
    if awaiting then take options { given with argument := some word } false extras rest
    else take options given false (extras ++ ["--", word]) rest
  | .separator :: rest =>
    if awaiting then take options given false extras rest
    else take options given false (extras ++ ["--"]) rest

def readArguments (options : List OptionSpec) (acceptsArgument : Bool) (words : List String) :
    Except UsageError Given := do
  take options Given.empty acceptsArgument [] (<- classify options words)

end CommandLine
end WeakKleene
