import Concordance.Files.Refusal

/-!
# Concordance.Console

What a run prints to.  A console may take only so many characters more, so that printing can fail
after some of them.
-/

namespace Concordance

open Files (Refusal)

/-- The text printed so far, and how many characters more are taken where that is limited. -/
structure Console where
  text : String := ""
  room : Option Nat := none
  deriving DecidableEq, Repr

/-- Print text.  Where the room ends, what fits is printed and the rest is refused. -/
def Console.print (c : Console) (text : String) : Console × Except Refusal Unit :=
  match c.room with
  | none => ({ c with text := c.text ++ text }, .ok ())
  | some room =>
    ({ text := c.text ++ String.ofList (text.toList.take room), room := some (room - text.length) },
      if text.length ≤ room then .ok () else .error .noSpace)

end Concordance
