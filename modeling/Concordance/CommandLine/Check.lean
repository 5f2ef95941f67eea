import Concordance.CommandLine.Item

/-!
# Concordance.CommandLine.Check

The checks of what is given, and which of several faults is reported.

Items are checked in order, each against those before it.  One that is complete only when the next
one comes is not checked any more where a word behind it is refused, and is checked after the level
of the command where the command follows it.  What a level needs is checked last.

* `checkItems_append` — a list of items passes where its parts do, the second one behind the first.
-/

namespace Concordance.CommandLine

/-! ## items -/

/-- Check that a name may be given behind other items. -/
def Name.checkRepeated (name : Name) (before : List Item) : Except Stop Unit :=
  if !name.isRepeatable && before.any (·.name? == some name) then .error .conflict else .ok ()

/-- Check a name with its value behind other items. -/
def Name.checkValue (name : Name) (value : String) (before : List Item) : Except Stop Unit :=
  match name.checkRepeated before with
  | .error stop => .error stop
  | .ok () => name.kind.check value

/-- Check an item behind other ones. -/
def Item.check (level : Level) (before : List Item) : Item → Except Stop Unit
  | .flag .help => .error .help
  | .flag .version => .error .version
  | .flag name => name.checkRepeated before
  | .attached name value => name.checkValue value before
  | .spaced _ none => .error .invalidValue
  | .spaced name (some value) => name.checkValue value before
  | .operand position value => ((level.operand? position).getD .text).check value

/-- Check items in order behind other ones. -/
def checkItems (level : Level) : (before items : List Item) → Except Stop Unit
  | _, [] => .ok ()
  | before, item :: rest =>
    match item.check level before with
    | .error stop => .error stop
    | .ok () => checkItems level (before ++ [item]) rest

/-- A list of items passes where its parts do, the second one behind the first. -/
theorem checkItems_append (level : Level) (before xs ys : List Item) :
    checkItems level before (xs ++ ys) =
      (match checkItems level before xs with
      | .error stop => .error stop
      | .ok () => checkItems level (before ++ xs) ys) := by
  induction xs generalizing before with
  | nil => simp [checkItems]
  | cons x xs ih =>
    simp only [List.cons_append, checkItems]
    cases x.check level before with
    | error _ => rfl
    | ok _ => simp [ih]

/-! ## levels -/

namespace Reading

/-- The items in front of one that is complete only when the next one comes. -/
def closed (r : Reading) : List Item :=
  match r.items.getLast? with
  | some item => if item.isOpen then r.items.dropLast else r.items
  | none => []

/-- The last item, if it is complete only when the next one comes. -/
def opened (r : Reading) : List Item := r.items.drop r.closed.length

/-- Check the items in front of the open one. -/
def checkClosed (r : Reading) (level : Level) : Except Stop Unit := checkItems level [] r.closed

/-- Check the open item. -/
def checkOpened (r : Reading) (level : Level) : Except Stop Unit :=
  checkItems level r.closed r.opened

end Reading

/-- Whether a name is given. -/
def isGiven (name : Name) (items : List Item) : Bool := items.any (·.name? == some name)

/-- Check the configuration file that the environment names, which counts on every level that names
none. -/
def checkEnvironment (environment : Option String) (items : List Item) : Except Stop Unit :=
  match environment with
  | none => .ok ()
  | some path => if isGiven .config items then .ok () else Name.config.kind.check path

/-- Check that no two arguments exclude each other. -/
def checkExclusions (items : List Item) : Except Stop Unit :=
  if isGiven .top items && isGiven .all items then .error .conflict else .ok ()

/-- Check a line that ends without a command. -/
def stopWithoutCommand (environment : Option String) (items : List Item) : Stop :=
  if items.isEmpty && environment.isNone then .nothingGiven else .missingCommand

end Concordance.CommandLine
