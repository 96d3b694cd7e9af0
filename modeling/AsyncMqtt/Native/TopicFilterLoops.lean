import AsyncMqtt.Native.TopicFilter

/-!
# Loops over the characters of a topic filter

The loops of `topic_filter.hpp` that go from one special character to the next, with what they use of
`std::string_view`. A position that is not found is `none`, for `npos`, which is more than any size.
-/

namespace AsyncMqtt

namespace StringView

/-- `find_first_of` -/
def findFirstOf (str chars : Buffer) (pos : Nat) : Option Nat :=
  ((str.drop pos).findIdx? fun c => decide (c ∈ chars)).map (pos + ·)

/-- `find` of a character -/
def find (str : Buffer) (c : UInt8) (pos : Nat) : Option Nat := findFirstOf str [c] pos

/-- `substr` from the beginning -/
def substr (str : Buffer) (count : Nat) : Buffer := str.take count

/-- `remove_prefix`, which must not be given more than the size -/
def removePrefix (str : Buffer) (n : Option Nat) : Option Buffer :=
  match n with
  | some n => if n ≤ str.length then some (str.drop n) else none
  | none => none

theorem findFirstOf_lt {str chars : Buffer} {pos idx : Nat}
    (h : findFirstOf str chars pos = some idx) : pos ≤ idx ∧ idx < str.length := by
  obtain ⟨i, hi, rfl⟩ := Option.map_eq_some_iff.mp h
  obtain ⟨hlt, -⟩ := List.findIdx?_eq_some_iff_getElem.mp hi
  rw [List.length_drop] at hlt
  omega

theorem length_removePrefix {str str' : Buffer} {n : Nat}
    (h : removePrefix str (some n) = some str') : str'.length + n = str.length := by
  unfold removePrefix at h
  dsimp only at h
  split at h
  · obtain rfl := Option.some.inj h
    rw [List.length_drop]
    omega
  · exact nomatch h

end StringView

open StringView

/-- The loop of `validate_topic_filter`, from a position -/
def validateTopicFilterFrom (topicFilter : Buffer) (pos : Nat) : Bool :=
  match h : findFirstOf topicFilter [0x00, 0x2b, 0x23] pos with
  | none => true
  | some idx =>
    validateTopicFilterAt topicFilter idx && validateTopicFilterFrom topicFilter (idx + 1)
  termination_by topicFilter.length - pos
  decreasing_by
    have hlt := findFirstOf_lt h
    omega

/-- `validate_topic_filter`, with the loop that goes from one special character to the next -/
def validateTopicFilterLoop (topicFilter : Buffer) : Bool :=
  topicFilter ≠ [] && topicFilter.length ≤ 0xffff && validateTopicFilterFrom topicFilter 0

/-- The loop of `compare_topic_filter`. There is no result when more characters are removed from a
    view than it has. -/
def compareWildcards (topicFilter topicName : Buffer) : Option Bool :=
  match findFirstOf topicFilter [0x2b, 0x23] 0 with
  | none => some (topicFilter = topicName)
  | some idx =>
    if topicFilter[idx]? = some 0x2b then
      if substr topicFilter idx = substr topicName idx then
        match _h : removePrefix topicFilter (some (idx + 1)) with
        | none => none
        | some topicFilter =>
          match removePrefix topicName (StringView.find topicName topicFilterSeparator idx) with
          | none => none
          | some topicName => compareWildcards topicFilter topicName
      else some false
    else some (substr topicFilter idx = substr topicName idx)
  termination_by topicFilter.length
  decreasing_by
    have hlt := length_removePrefix _h
    omega

/-- `compare_topic_filter`. Before each early return stands an assertion that fails there. -/
def compareTopicFilter (topicFilter topicName : Buffer) : Option Bool :=
  if ! validateTopicFilter topicFilter then some false
  else if ! validateTopicName topicName then some false
  else compareWildcards topicFilter topicName

end AsyncMqtt
