import AsyncMqtt.Native.Types

/-!
# Topic names and topic filters

`topic_filter.hpp` of the broker. A topic is a byte string, and its levels stand between the
separators. `topic_filter_tokenizer` hands the levels over one after another, until the callback
returns `false`: the functions that use it are recursions over the list of levels here.
-/

namespace AsyncMqtt

/-- `topic_filter_separator` -/
def topicFilterSeparator : UInt8 := 0x2f

/-- The levels that `topic_filter_tokenizer` finds. -/
def topicFilterTokens (str : Buffer) : List Buffer := str.splitOn topicFilterSeparator

/-- `+` as a level -/
def plusLevel : Buffer := [0x2b]

/-- `#` as a level -/
def hashLevel : Buffer := [0x23]

/-- `t.empty() || t[0] != '$'`, negated: the level belongs to the server. -/
def isSystemLevel (t : Buffer) : Bool := t.head? = some 0x24

/-- One turn of the loop of `validate_topic_filter`, at a character of the string. -/
def validateTopicFilterAt (topicFilter : Buffer) (idx : Nat) : Bool :=
  if topicFilter[idx]? = some 0x00 then false
  else if topicFilter[idx]? = some 0x2b then
    (idx = 0 || topicFilter[idx - 1]? = some topicFilterSeparator) &&
      (topicFilter.length - 1 = idx || topicFilter[idx + 1]? = some topicFilterSeparator)
  else if topicFilter[idx]? = some 0x23 then
    idx = topicFilter.length - 1 &&
      (idx = 0 || topicFilter[idx - 1]? = some topicFilterSeparator)
  else true

/-- `validate_topic_filter` -/
def validateTopicFilter (topicFilter : Buffer) : Bool :=
  topicFilter ≠ [] && topicFilter.length ≤ 0xffff &&
    (List.range topicFilter.length).all (validateTopicFilterAt topicFilter)

/-- `validate_topic_name` -/
def validateTopicName (topicName : Buffer) : Bool :=
  topicName ≠ [] && topicName.length ≤ 0xffff &&
    topicName.all fun c => c ≠ 0x00 && c ≠ 0x2b && c ≠ 0x23

example : validateTopicFilter [0x2b, 0x2f, 0x62, 0x2f, 0x23] := by decide

example : validateTopicFilter [0x66, 0x23] = false := by decide

end AsyncMqtt
