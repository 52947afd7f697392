/-!
# Words of a command line

Splits the words behind a command into options with their values and plain words. A value follows its
option as the next word or after an equals sign. Options that were not given may be set by variables of
the environment.
-/

namespace Mend.Command

/-- What an option takes. -/
inductive Arity where
  /-- Nothing; the option is on or off. -/
  | switch
  /-- One value, at most once. -/
  | value
  /-- One value, any number of times. -/
  | values
  deriving DecidableEq, Repr

/-- A known option. -/
structure OptionSpec where
  name : String
  arity : Arity
  /-- The variable that sets the option when it is not given. -/
  setBy : Option String := none
  /-- The one-letter form. -/
  letter? : Option Char := none
  /-- Whether a text is a value of the option. -/
  accepts : String → Bool := fun _ => true

/-- Why words are refused. -/
inductive UsageError where
  | unknownOption (word : String)
  | unexpectedWord (word : String)
  | unexpectedValue (option : String)
  | missingValue (option : String)
  | repeatedOption (option : String)
  | badValue (option value : String)
  | missing (what : String)
  | conflict (option other : String)
  | unknownCommand (word : String)
  deriving DecidableEq, Repr

/-- Why splitting ended before the last word. -/
inductive Stop where
  | error (e : UsageError)
  /-- Help was asked for. -/
  | help
  deriving DecidableEq, Repr

/-- Options with their values and plain words, in order. -/
structure Words where
  given : List (String × String)
  plain : List String
  deriving DecidableEq, Repr, Inhabited

namespace Words

/-- No words. -/
def empty : Words := ⟨[], []⟩

/-- The values of an option. -/
def valuesOf (w : Words) (option : String) : List String :=
  (w.given.filter (·.1 == option)).map Prod.snd

/-- The value of an option. -/
def value? (w : Words) (option : String) : Option String := (w.valuesOf option).head?

/-- Adds an option, unless it is there and may not come twice, or the value is none of its values. -/
def give (w : Words) (o : OptionSpec) (value : String) : Except Stop Words :=
  if o.arity != .values && w.given.any (·.1 == o.name) then .error (.error (.repeatedOption o.name))
  else if !o.accepts value then .error (.error (.badValue o.name value))
  else .ok { w with given := w.given ++ [(o.name, value)] }

/-- Adds a plain word, unless it is empty or there are `limit` of them. -/
def givePlain (limit : Nat) (w : Words) (word : String) : Except Stop Words :=
  if word.isEmpty || limit ≤ w.plain.length then .error (.error (.unexpectedWord word))
  else .ok { w with plain := w.plain ++ [word] }

end Words

/-- The value of a switch that is on. -/
def on : String := "true"

/-- A word that starts an option. -/
def isOptionWord (word : String) : Bool :=
  match word.toList with
  | '-' :: _ :: _ => true
  | _ => false

/-- The name of a long option, and the value after an equals sign. -/
def splitLong (body : List Char) : String × Option String :=
  let name := body.takeWhile (· != '=')
  match body.drop name.length with
  | _ :: value => (String.ofList name, some (String.ofList value))
  | [] => (String.ofList name, none)

/-- Takes in switches that are given by their letters. -/
def giveLetters (specs : List OptionSpec) (w : Words) : List Char → Except Stop Words
  | [] => .ok w
  | 'h' :: _ => .error .help
  | c :: r =>
    match specs.find? fun o => o.letter? == some c && o.arity == .switch with
    | some o => do giveLetters specs (← w.give o on) r
    | none => .error (.error (.unknownOption (String.singleton c)))

/-- Takes in a long option, with the words behind it. Says how many of these are its value. -/
def giveLong (specs : List OptionSpec) (w : Words) (body : List Char) (behind : List String) :
    Except Stop (Words × Nat) :=
  let (name, attached) := splitLong body
  if name == "help" && attached.isNone then .error .help
  else
    match specs.find? (·.name == name) with
    | none => .error (.error (.unknownOption name))
    | some o =>
      match o.arity, attached, behind with
      | .switch, none, _ => do return (← w.give o on, 0)
      | .switch, some _, _ => .error (.error (.unexpectedValue name))
      | _, some value, _ => do return (← w.give o value, 0)
      | _, none, value :: _ =>
        if isOptionWord value then .error (.error (.missingValue name))
        else do return (← w.give o value, 1)
      | _, none, [] => .error (.error (.missingValue name))

/-- Takes in word after word, with at most `limit` plain ones. After two hyphens alone all words are
plain. The first fault ends the reading, so that a call for help behind it is not heard. -/
def splitWords (specs : List OptionSpec) (limit : Nat) (w : Words) :
    List String → Except Stop Words
  | [] => .ok w
  | word :: rest =>
    match word.toList with
    | ['-', '-'] => rest.foldlM (·.givePlain limit ·) w
    | '-' :: '-' :: body => do
      let (w, used) ← giveLong specs w body rest
      splitWords specs limit w (rest.drop used)
    | '-' :: c :: letters => do
      splitWords specs limit (← giveLetters specs w (c :: letters)) rest
    | _ => do splitWords specs limit (← w.givePlain limit word) rest
termination_by words => words.length
decreasing_by
  all_goals simp only [List.length_drop, List.length_cons]
  all_goals omega

/-- Sets the options that were not given by their variables. -/
def giveVariables (lookUp : String → Option String) (specs : List OptionSpec) (w : Words) :
    Words :=
  specs.foldl (fun w o =>
    match o.setBy.bind lookUp with
    | some value =>
      if w.given.any (·.1 == o.name) then w else { w with given := w.given ++ [(o.name, value)] }
    | none => w) w

end Mend.Command
