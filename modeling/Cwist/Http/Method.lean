import Cwist.Http.Request

namespace Cwist.Http
open List

def methodToString : Method → Bytes
  | .get => ascii "GET"
  | .post => ascii "POST"
  | .put => ascii "PUT"
  | .delete => ascii "DELETE"
  | .patch => ascii "PATCH"
  | .head => ascii "HEAD"
  | .options => ascii "OPTIONS"
  | .connect => ascii "CONNECT"
  | .unknown => ascii "UNKNOWN"

/-- What the switch takes for a method although it is not its name: a longer token, or one that what follows it
completes. -/
def Mistaken (str following : Bytes) : Prop :=
  ascii "GET " <+: str ∨ ascii "PUT " <+: str ∨
    ascii "POST" <+: str ∧ str ≠ ascii "POST" ∨ ascii "DELETE" <+: str ∧ str ≠ ascii "DELETE" ∨
    str = ascii "POS" ∧ following.head? = some 0x54

def ExactMethod (str following : Bytes) : Prop :=
  ∀ m, m ≠ .unknown → (stringToMethodLen str following = m ↔ str = methodToString m)

variable {str following name rest : Bytes}

lemma methodByLength_eq_iff {m : Method} (known : m ≠ .unknown) (other : m ≠ .connect) :
    methodByLength str = m ↔ str = methodToString m := by
  constructor
  · intro found
    unfold methodByLength at found
    repeat' split at found
    all_goals first
      | exact absurd found.symm known
      | subst found
        assumption
  · rintro rfl
    cases m with
    | connect => exact absurd rfl other
    | unknown => exact absurd rfl known
    | get => decide
    | post => decide
    | put => decide
    | delete => decide
    | patch => decide
    | head => decide
    | options => decide

lemma methodByLength_ne_connect (str : Bytes) : methodByLength str ≠ .connect := by
  unfold methodByLength
  repeat' split
  all_goals exact Method.noConfusion

lemma take_four (four : name.length = 4) (long : 3 ≤ str.length) (magic : (str ++ following).take 4 = name) :
    name <+: str ∨ str = name.take 3 ∧ following.head? = name[3]? := by
  by_cases whole : 4 ≤ str.length
  · left
    rw [← magic, take_append_of_le_length whole]
    exact take_prefix 4 str
  right
  have three : str.length = 3 := by omega
  rw [take_append, take_of_length_le (by omega)] at magic
  subst magic
  refine ⟨?_, ?_⟩
  · rw [take_append_of_le_length (by omega), take_of_length_le (by omega)]
  · rw [getElem?_append_right (by omega), three]
    cases following <;> rfl

lemma stringToMethodLen_eq (fair : ¬Mistaken str following) : stringToMethodLen str following = methodByLength str := by
  unfold stringToMethodLen
  by_cases long : str.length ≥ 3
  · rw [if_pos long]
    unfold methodMagic
    split
    next magic =>
      rcases take_four (by decide) long magic with here | ⟨rfl, -⟩
      · exact absurd (.inl here) fair
      · decide
    split
    next magic =>
      rcases take_four (by decide) long magic with here | ⟨same, next⟩
      · by_cases whole : str = ascii "POST"
        · rw [whole]
          decide
        · exact absurd (.inr (.inr (.inl ⟨here, whole⟩))) fair
      · exact absurd (.inr (.inr (.inr (.inr ⟨same, next⟩)))) fair
    split
    next magic =>
      rcases take_four (by decide) long magic with here | ⟨rfl, -⟩
      · exact absurd (.inr (.inl here)) fair
      · decide
    split
    · split
      next deletes =>
        have here : ascii "DELETE" <+: str := deletes.2 ▸ take_prefix 6 str
        by_cases whole : str = ascii "DELETE"
        · rw [whole]
          decide
        · exact absurd (.inr (.inr (.inr (.inl ⟨here, whole⟩)))) fair
      · rfl
    split
    next magic =>
      split
      next four =>
        rcases take_four (by decide) long magic with here | ⟨rfl, -⟩
        · rw [← here.eq_of_length four.symm]
          decide
        · exact absurd four (by decide)
      · rfl
    · rfl
  · rw [if_neg long]
    have short : str.length ≠ 3 ∧ str.length ≠ 4 ∧ str.length ≠ 5 ∧ str.length ≠ 6 ∧ str.length ≠ 7 := by omega
    simp [methodByLength, short]

lemma stringToMethodLen_magic (four : name.length = 4) (same : str ++ following = name ++ rest)
    (long : 3 ≤ str.length) : stringToMethodLen str following = (methodMagic str name).getD (methodByLength str) := by
  unfold stringToMethodLen
  rw [if_pos long, same, ← four, take_left]

lemma Mistaken.wrong (mistaken : Mistaken str following) :
    ∃ m, m ≠ .unknown ∧ stringToMethodLen str following = m ∧ str ≠ methodToString m := by
  rcases mistaken with ⟨rest, rfl⟩ | ⟨rest, rfl⟩ | ⟨⟨rest, rfl⟩, other⟩ | ⟨⟨rest, rfl⟩, other⟩ | ⟨rfl, next⟩
  · refine ⟨.get, by decide, ?_, fun same => absurd (congrArg List.length same) (by simp [ascii, methodToString])⟩
    exact stringToMethodLen_magic (by decide) (append_assoc _ _ _) (by simp [ascii])
  · refine ⟨.put, by decide, ?_, fun same => absurd (congrArg List.length same) (by simp [ascii, methodToString])⟩
    exact stringToMethodLen_magic (by decide) (append_assoc _ _ _) (by simp [ascii])
  · exact ⟨.post, by decide, stringToMethodLen_magic (by decide) (append_assoc _ _ _) (by simp [ascii]), other⟩
  · refine ⟨.delete, by decide, ?_, other⟩
    rfl
  cases following with
  | nil => cases next
  | cons c rest =>
    cases next
    have found := @stringToMethodLen_magic (ascii "POS") (0x54 :: rest) (ascii "POST") rest (by decide) rfl (by decide)
    exact ⟨.post, by decide, found, by decide⟩

/-- `CONNECT` is the one method that the function does not know. -/
theorem exactMethod_iff (str following : Bytes) :
    ExactMethod str following ↔ ¬Mistaken str following ∧ str ≠ ascii "CONNECT" := by
  constructor
  · intro exact_
    refine ⟨fun mistaken => ?_, fun connect => ?_⟩
    · obtain ⟨m, known, found, other⟩ := mistaken.wrong
      exact other ((exact_ m known).mp found)
    have fair : ¬Mistaken str following := fun mistaken =>
      let ⟨m, known, found, other⟩ := mistaken.wrong
      other ((exact_ m known).mp found)
    have found := (exact_ .connect (by decide)).mpr connect
    rw [stringToMethodLen_eq fair] at found
    exact methodByLength_ne_connect str found
  · rintro ⟨fair, connect⟩ m known
    rw [stringToMethodLen_eq fair]
    by_cases other : m = .connect
    · subst other
      exact ⟨fun found => absurd found (methodByLength_ne_connect str), fun same => absurd same connect⟩
    · exact methodByLength_eq_iff known other

/-- A token that goes on after the name, and the method that is never found. -/
theorem method_mistaken :
    stringToMethodLen (ascii "POSTMAN") (ascii " ") = .post ∧ stringToMethodLen (ascii "CONNECT") (ascii " ") = .unknown ∧
      ¬ExactMethod (ascii "POSTMAN") (ascii " ") ∧ ¬ExactMethod (ascii "CONNECT") (ascii " ") := by
  refine ⟨by decide, by decide, fun exact_ => ?_, fun exact_ => ?_⟩
  · exact absurd ((exact_ .post (by decide)).mp (by decide)) (by decide)
  · exact absurd ((exact_ .connect (by decide)).mpr (by decide)) (by decide)

end Cwist.Http
