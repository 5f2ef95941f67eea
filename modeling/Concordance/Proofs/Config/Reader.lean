import Concordance.Config.Reader
import Mathlib.Tactic.Common

/-!
# Concordance.Proofs.Config.Reader

What holds of settings however they are given.

* `ofFile_length` — the token length is a number of 64 bits.
-/

namespace Concordance.Config

open Files

theorem lt_of_word? {value : Json} {n : Nat} (h : word? value = some n) :
    n < Decimal.wordLimit := by
  unfold word? at h
  split at h
  · split at h
    · cases h
      assumption
    · cases h
  · cases h

/-- The token length is a number of 64 bits, also where a file gives it. -/
theorem put?_length {c d : Config} {value : Json} {s : Setting}
    (hc : c.maxTokenLength < Decimal.wordLimit) (h : c.put? value s = some d) :
    d.maxTokenLength < Decimal.wordLimit := by
  cases s with
  | maxTokenLength =>
      obtain ⟨n, hn, rfl⟩ := Option.map_eq_some_iff.mp h
      exact lt_of_word? hn
  | _ =>
      obtain ⟨_, -, rfl⟩ := Option.map_eq_some_iff.mp h
      exact hc

theorem putMembers?_length {given : List Setting} {c d : Config} {members : List (String × Json)}
    (hc : c.maxTokenLength < Decimal.wordLimit) (h : putMembers? given c members = some d) :
    d.maxTokenLength < Decimal.wordLimit := by
  induction members generalizing given c with
  | nil =>
      cases h
      exact hc
  | cons m rest ih =>
      unfold putMembers? at h
      split at h
      · exact ih hc h
      split at h
      · cases h
      split at h
      · cases h
      · next hput => exact ih (put?_length hc hput) h

theorem putItems?_length {c d : Config} {settings : List Setting} {values : List Json}
    (hc : c.maxTokenLength < Decimal.wordLimit) (h : putItems? c settings values = some d) :
    d.maxTokenLength < Decimal.wordLimit := by
  induction values generalizing settings c with
  | nil =>
      cases settings <;> cases h <;> exact hc
  | cons value values ih =>
      cases settings with
      | nil => cases h
      | cons s settings =>
          unfold putItems? at h
          split at h
          · cases h
          · next hput => exact ih (put?_length hc hput) h

theorem length_default : ({} : Config).maxTokenLength < Decimal.wordLimit := by decide

theorem ofFile_length {t : Tree} {path : String} {c : Config} (h : ofFile t path = .ok c) :
    c.maxTokenLength < Decimal.wordLimit := by
  unfold ofFile at h
  split at h
  · cases h
  unfold ofText at h
  split at h
  · cases h
  next d hd =>
  split at h
  · cases h
  cases h
  obtain ⟨v, -, hv⟩ := Option.bind_eq_some_iff.mp hd
  unfold ofJson? at hv
  split at hv
  · obtain ⟨members, -, hmembers⟩ := Option.bind_eq_some_iff.mp hv
    exact putMembers?_length length_default hmembers
  · exact putItems?_length length_default hv
  · cases hv

end Concordance.Config
