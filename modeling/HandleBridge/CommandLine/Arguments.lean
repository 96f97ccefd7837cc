/-
  HandleBridge.CommandLine.Arguments — what the words of a command line mean.

  Options come in short form (`-c file`, `-cfile`, `-c=file`, several flags in one word)
  and in long form (`--config file`, `--config=file`), each at most once per level; the
  levels are the program itself and its command. After `--` every word stands for
  itself. The first word that is wrong makes the whole line wrong, and the first request
  for help or for the version ends the reading.
-/

namespace HandleBridge.CommandLine

inductive Topic where
  | program
  | features
  | simulate
  | help
  deriving DecidableEq, Repr

inductive Command where
  | features (keys : List String)
  | simulate (items : Option Nat) (deferred : Bool)
  deriving DecidableEq, Repr

/-- A command line that asks for a command to be run. -/
structure Invocation where
  verbose : Bool
  config : Option String
  command : Command
  deriving DecidableEq, Repr

/-- What a command line asks for. -/
inductive Request where
  | run (i : Invocation)
  | help (topic : Topic)
  | version
  | misuse
  deriving DecidableEq, Repr

inductive Level where
  | program
  | features
  | simulate
  deriving DecidableEq, Repr

/-- The options and flags of all levels. -/
inductive Switch where
  | verbose
  | config
  | items
  | deferred
  | help
  | version
  deriving DecidableEq, Repr

/-- The options that there are at each level. -/
def Level.options : Level → List Switch
  | .program => [.verbose, .config, .help, .version]
  | .features => [.verbose, .config, .help]
  | .simulate => [.items, .deferred, .verbose, .config, .help]

def Level.topic : Level → Topic
  | .program => .program
  | .features => .features
  | .simulate => .simulate

namespace Switch

def takesValue : Switch → Bool
  | config | items => true
  | _ => false

def short? : Switch → Option Char
  | verbose => some 'v'
  | config => some 'c'
  | items => some 'i'
  | deferred => none
  | help => some 'h'
  | version => some 'V'

def long : Switch → String
  | verbose => "verbose"
  | config => "config"
  | items => "items"
  | deferred => "deferred"
  | help => "help"
  | version => "version"

end Switch

/-- Reads a number of 64 bits without a sign other than a plus. -/
def number? (s : String) : Option Nat :=
  let digits := match s.toList with
    | '+' :: ds => ds
    | ds => ds
  if !digits.isEmpty && digits.all Char.isDigit then
    let n := digits.foldl (fun n c => n * 10 + (c.toNat - '0'.toNat)) 0
    if n < UInt64.size then some n else none
  else none

/-- What has been read so far, on one level. -/
structure Reading where
  level : Level
  flags : List Switch
  config : Option String
  items : Option Nat
  keys : List String

def Reading.start (level : Level) : Reading := ⟨level, [], none, none, []⟩

/-- What reading one word comes to. -/
inductive Progress where
  | next (r : Reading)
  /-- The next word is the option's value. -/
  | wants (o : Switch) (r : Reading)
  | done (answer : Request)

namespace Reading

/-- Takes a flag, which may be given once. -/
def flag (r : Reading) (o : Switch) : Progress :=
  match o with
  | .help => .done (.help r.level.topic)
  | .version => .done .version
  | o => if o ∈ r.flags then .done .misuse else .next { r with flags := o :: r.flags }

/-- Takes an option's value, which may be given once. -/
def value (r : Reading) (o : Switch) (s : String) : Progress :=
  match o with
  | .config =>
    if r.config.isSome || s.isEmpty then .done .misuse else .next { r with config := some s }
  | .items =>
    match number? s with
    | some n => if r.items.isSome then .done .misuse else .next { r with items := some n }
    | none => .done .misuse
  | _ => .done .misuse

/-- Drops an equals sign in front. -/
def afterEquals : List Char → List Char
  | '=' :: cs => cs
  | cs => cs

/-- Reads the letters of a word of short options. -/
def shorts (r : Reading) : List Char → Progress
  | [] => .next r
  | c :: cs =>
    match r.level.options.find? (·.short? = some c) with
    | none => .done .misuse
    | some o =>
      if o.takesValue then
        if cs.isEmpty then .wants o r else r.value o (String.ofList (afterEquals cs))
      else match r.flag o with
        | .next r => shorts r cs
        | p => p

/-- Reads a long option, without its dashes. -/
def long (r : Reading) (cs : List Char) : Progress :=
  let name := String.ofList (cs.takeWhile (· ≠ '='))
  let attached := cs.dropWhile (· ≠ '=')
  match r.level.options.find? (·.long = name) with
  | none => .done .misuse
  | some o =>
    match o.takesValue, attached with
    | true, [] => .wants o r
    | true, _ :: v => r.value o (String.ofList v)
    | false, [] => r.flag o
    | false, _ => .done .misuse

/-- Whether a word is one that options are written with. -/
def looksLikeOption (word : String) : Bool :=
  match word.toList with
  | '-' :: _ :: _ => true
  | _ => false

def option (r : Reading) (word : String) : Progress :=
  match word.toList with
  | '-' :: '-' :: cs => r.long cs
  | '-' :: cs => r.shorts cs
  | _ => .done .misuse

/-- Takes a word that stands for itself. -/
def key (r : Reading) (word : String) : Progress :=
  match r.level with
  | .features => .next { r with keys := r.keys ++ [word] }
  | _ => .done .misuse

/-- Takes the words after `--`. -/
def rest (r : Reading) : List String → Progress
  | [] => .next r
  | word :: words =>
    match r.key word with
    | .next r => rest r words
    | p => p

/-- Reads the words of a command, after the option whose value is awaited, if any. -/
def words (r : Reading) : Option Switch → List String → Progress
  | none, [] => .next r
  | some _, [] => .done .misuse
  | some o, word :: more =>
    if looksLikeOption word then .done .misuse
    else match r.value o word with
      | .next r => words r none more
      | p => p
  | none, word :: more =>
    if word = "--" then r.rest more
    else match (if looksLikeOption word then r.option word else r.key word) with
      | .next r => words r none more
      | .wants o r => words r (some o) more
      | .done answer => .done answer

/-- What a command's words ask for. A command's own options go before the program's. -/
def request (program r : Reading) : Request :=
  let config := match r.config with
    | some c => some c
    | none => program.config
  let verbose := decide (.verbose ∈ program.flags ++ r.flags)
  match r.level with
  | .features => .run ⟨verbose, config, .features r.keys⟩
  | .simulate => .run ⟨verbose, config, .simulate r.items (decide (.deferred ∈ r.flags))⟩
  | .program => .misuse

def command (program : Reading) (level : Level) (more : List String) : Request :=
  match words (start level) none more with
  | .next r => request program r
  | .wants .. => .misuse
  | .done answer => answer

/-- What a request for help is about. -/
def helpTopic : List String → Request
  | [] => .help .program
  | ["features"] => .help .features
  | ["simulate"] => .help .simulate
  | ["help"] => .help .help
  | _ => .misuse

/-- Reads the words of the program, up to the name of a command. -/
def program (r : Reading) : Option Switch → List String → Request
  | _, [] => .misuse
  | some o, word :: more =>
    if looksLikeOption word then .misuse
    else match r.value o word with
      | .next r => program r none more
      | .wants .. => .misuse
      | .done answer => answer
  | none, word :: more =>
    if word = "--" then .misuse
    else if looksLikeOption word then
      match r.option word with
      | .next r => program r none more
      | .wants o r => program r (some o) more
      | .done answer => answer
    else if word = "features" then command r .features more
    else if word = "simulate" then command r .simulate more
    else if word = "help" then helpTopic more
    else .misuse

end Reading

/-- What a command line asks for. -/
def Request.ofWords (words : List String) : Request := Reading.program (.start .program) none words

end HandleBridge.CommandLine
