import AsyncMqtt.Native.Security
import Mathlib.Data.List.Infix

/-!
# Removing comments from a configuration

`json_remove_comments` against a grammar of JSON with comments. The function
keeps a flag for each kind of quote. A `"` closes a string also behind a
backslash, nothing closes a string that `'` has opened, and a `/` outside of
strings hides the character after it. So it removes exactly the comments if its
idea of where a string ends agrees with the text wherever a comment marker
stands.

The characters are bytes: `0x0a` is the end of a line, `0x22` is `"`, `0x27` is
`'`, `0x2a` is `*`, `0x2f` is `/` and `0x5c` is `\`.

## Key results

- `jsonRemoveComments_read`: a string that is read to its end is written as it is
- `jsonRemoveComments_lineComment`, `jsonRemoveComments_blockComment`: a comment
  outside of strings
- `not_startsComment`: nothing that is written outside of strings is a marker
-/

namespace AsyncMqtt

/-! ### JSON with comments -/

namespace JsonText

/-- A character of a string that stands in the given quotes. A backslash escapes
    the next character if `escapes` is set. -/
inductive StringChar (quote : UInt8) (escapes : Bool) where
  | plain (c : UInt8) (h : c ≠ quote ∧ (escapes = true → c ≠ 0x5c))
  | escaped (c : UInt8) (h : escapes = true)

/-- The text of a character. -/
def StringChar.text {quote : UInt8} {escapes : Bool} : StringChar quote escapes → Buffer
  | plain c _ => [c]
  | escaped c _ => [0x5c, c]

/-- A piece of the text. A character of a token or between tokens is neither a quote nor a slash.
    Whether a backslash escapes in single quotes is a parameter. -/
inductive Piece (escapes : Bool) where
  | token (c : UInt8) (h : c ≠ 0x22 ∧ c ≠ 0x27 ∧ c ≠ 0x2f)
  | doubleQuoted (chars : List (StringChar 0x22 true))
  | singleQuoted (chars : List (StringChar 0x27 escapes))
  | lineComment (body : Buffer) (h : 0x0a ∉ body)
  | blockComment (body : Buffer) (h : ¬ [0x2a, 0x2f] <:+: body)

namespace Piece

variable {escapes : Bool}

/-- The text of a piece. -/
def text : Piece escapes → Buffer
  | token c _ => [c]
  | doubleQuoted chars => 0x22 :: chars.flatMap StringChar.text ++ [0x22]
  | singleQuoted chars => 0x27 :: chars.flatMap StringChar.text ++ [0x27]
  | lineComment body _ => 0x2f :: 0x2f :: body ++ [0x0a]
  | blockComment body _ => 0x2f :: 0x2a :: body ++ [0x2a, 0x2f]

/-- What is to be left of a piece. -/
def kept : Piece escapes → Buffer
  | lineComment _ _ => [0x0a]
  | blockComment _ _ => []
  | p => p.text

end Piece

/-- A text. The end of the text may close a line comment. -/
structure Document (escapes : Bool) where
  pieces : List (Piece escapes)
  last : Option { body : Buffer // 0x0a ∉ body }

namespace Document

variable {escapes : Bool}

/-- The text of a document -/
def text (doc : Document escapes) : Buffer :=
  doc.pieces.flatMap Piece.text ++ (doc.last.elim [] fun body => 0x2f :: 0x2f :: body.val)

/-- The text without its comments. -/
def kept (doc : Document escapes) : Buffer :=
  doc.pieces.flatMap Piece.kept

end Document

/-! ### How the quotes are read -/

/-- The quote that is open. -/
inductive Quote where
  | outside
  | double
  | single
  deriving DecidableEq

namespace Quote

/-- The quote that is open after a character outside of strings. -/
def opened (c : UInt8) : Quote :=
  if c = 0x22 then double else if c = 0x27 then single else outside

/-- The quote that is open after some characters, if `q` was open before them and strings end
    where `json_remove_comments` ends them; `none` if a comment marker stands outside. -/
def read : Quote → Buffer → Option Quote
  | q, [] => some q
  | single, _ :: cs => read single cs
  | double, c :: cs => read (if c = 0x22 then outside else double) cs
  | outside, [c] => some (opened c)
  | outside, c :: next :: cs =>
    if c = 0x2f then if next = 0x2f ∨ next = 0x2a then none else read outside cs
    else read (opened c) (next :: cs)

/-- The flags of the function. -/
def state : Quote → CommentState
  | outside => {}
  | double => { insideDoubleQuote := true }
  | single => { insideSingleQuote := true }

end Quote

variable {escapes : Bool}

/-- The quote that is open after a piece. A comment is only seen outside of strings. -/
def Piece.read (q : Quote) : Piece escapes → Option Quote
  | lineComment _ _ | blockComment _ _ => if q = .outside then some .outside else none
  | p => q.read p.text

/-- No comment of the text stands where the function sees a string, and no comment marker of a
    string where it sees none. -/
def Tracked (q : Quote) : List (Piece escapes) → Option { body : Buffer // 0x0a ∉ body } → Prop
  | [], last => last.isSome → q = .outside
  | p :: pieces, last =>
    match p.read q with
    | some q => Tracked q pieces last
    | none => False

end JsonText

open JsonText

/-! ### One character -/

/-- No text is left. -/
@[simp]
theorem jsonRemoveComments_nil (s : CommentState) : jsonRemoveComments s [] = [] := rfl

/-- The last character is written or not, as the state says. -/
theorem jsonRemoveComments_singleton (s : CommentState) (c : UInt8) :
    jsonRemoveComments s [c] = (s.write c).2 := rfl

/-- What the loop does with a character that is not the last one. -/
theorem jsonRemoveComments_cons_cons (s : CommentState) (c next : UInt8) (input : Buffer) :
    jsonRemoveComments s (c :: next :: input) =
      let outside := ! s.insideComment && ! s.insideBlockComment && ! s.insideDoubleQuote &&
        ! s.insideSingleQuote
      if outside && c = 0x2f && next = 0x2f then
        jsonRemoveComments { s with insideComment := true } input
      else if outside && c = 0x2f && next = 0x2a then
        jsonRemoveComments { s with insideBlockComment := true } input
      else if outside && c = 0x2f then c :: next :: jsonRemoveComments s input
      else if s.insideBlockComment && c = 0x2a && next = 0x2f then
        jsonRemoveComments { s with insideBlockComment := false } input
      else (s.write c).2 ++ jsonRemoveComments (s.write c).1 (next :: input) := rfl

/-- Once a `'` has opened a string, all that follows is written. -/
theorem jsonRemoveComments_single (input : Buffer) :
    jsonRemoveComments Quote.single.state input = input := by
  induction input with
  | nil => rfl
  | cons c input ih =>
    cases input with
    | nil => rfl
    | cons next input =>
      have hstep : jsonRemoveComments Quote.single.state (c :: next :: input) =
          c :: jsonRemoveComments Quote.single.state (next :: input) := by
        simp [jsonRemoveComments_cons_cons, Quote.state, CommentState.write]
      rw [hstep, ih]

/-- Between double quotes every character is written. -/
theorem jsonRemoveComments_double (c : UInt8) (input : Buffer) :
    jsonRemoveComments Quote.double.state (c :: input) =
      c :: jsonRemoveComments (if c = 0x22 then Quote.outside else Quote.double).state input := by
  cases input with
  | nil => rfl
  | cons next input =>
    by_cases hquote : c = 0x22
    · subst hquote
      simp [jsonRemoveComments_cons_cons, Quote.state, CommentState.write]
    · simp [jsonRemoveComments_cons_cons, Quote.state, CommentState.write, hquote]

/-- So is a character outside of strings, if it is no slash. -/
theorem jsonRemoveComments_outside {c : UInt8} (hc : c ≠ 0x2f) (input : Buffer) :
    jsonRemoveComments Quote.outside.state (c :: input) =
      c :: jsonRemoveComments (Quote.opened c).state input := by
  cases input with
  | nil => simp [jsonRemoveComments_singleton, Quote.state, CommentState.write]
  | cons next input =>
    by_cases hdouble : c = 0x22
    · subst hdouble
      simp [jsonRemoveComments_cons_cons, Quote.state, Quote.opened, CommentState.write]
    · by_cases hsingle : c = 0x27
      · subst hsingle
        simp [jsonRemoveComments_cons_cons, Quote.state, Quote.opened, CommentState.write]
      · simp [jsonRemoveComments_cons_cons, Quote.state, Quote.opened, CommentState.write, hdouble,
          hsingle, hc]

/-- A slash that starts no comment is written with the character after it. -/
theorem jsonRemoveComments_slash {next : UInt8} (h : ¬ (next = 0x2f ∨ next = 0x2a))
    (input : Buffer) :
    jsonRemoveComments Quote.outside.state (0x2f :: next :: input) =
      0x2f :: next :: jsonRemoveComments Quote.outside.state input := by
  obtain ⟨hslash, hstar⟩ := not_or.mp h
  simp [jsonRemoveComments_cons_cons, Quote.state, hslash, hstar]

/-! ### Comments -/

/-- The flags in a line comment and in a block comment. -/
def lineState : CommentState := { insideComment := true }
/-- Inside a block comment -/
def blockState : CommentState := { insideBlockComment := true }

/-- A line comment begins. -/
theorem jsonRemoveComments_startLine (input : Buffer) :
    jsonRemoveComments Quote.outside.state (0x2f :: 0x2f :: input) =
      jsonRemoveComments lineState input := by
  simp [jsonRemoveComments_cons_cons, Quote.state, lineState]

/-- A block comment begins. -/
theorem jsonRemoveComments_startBlock (input : Buffer) :
    jsonRemoveComments Quote.outside.state (0x2f :: 0x2a :: input) =
      jsonRemoveComments blockState input := by
  simp [jsonRemoveComments_cons_cons, Quote.state, blockState]

/-- A line comment ends with its line. -/
theorem jsonRemoveComments_line (c : UInt8) (input : Buffer) :
    jsonRemoveComments lineState (c :: input) =
      if c = 0x0a then 0x0a :: jsonRemoveComments Quote.outside.state input
      else jsonRemoveComments lineState input := by
  cases input with
  | nil =>
    by_cases hnewline : c = 0x0a <;>
      simp [jsonRemoveComments_singleton, lineState, CommentState.write, hnewline]
  | cons next input =>
    by_cases hnewline : c = 0x0a
    · subst hnewline
      simp [jsonRemoveComments_cons_cons, lineState, Quote.state, CommentState.write]
    · simp [jsonRemoveComments_cons_cons, lineState, CommentState.write, hnewline]

/-- A block comment ends. -/
theorem jsonRemoveComments_endBlock (input : Buffer) :
    jsonRemoveComments blockState (0x2a :: 0x2f :: input) =
      jsonRemoveComments Quote.outside.state input := by
  simp [jsonRemoveComments_cons_cons, Quote.state, blockState]

/-- A character of a block comment is left out. -/
theorem jsonRemoveComments_block {c : UInt8} {input : Buffer}
    (h : ¬ [0x2a, 0x2f] <+: c :: input) :
    jsonRemoveComments blockState (c :: input) = jsonRemoveComments blockState input := by
  cases input with
  | nil => simp [jsonRemoveComments_singleton, blockState, CommentState.write]
  | cons next input =>
    have hclose : ¬ (c = 0x2a ∧ next = 0x2f) := by
      rintro ⟨rfl, rfl⟩
      exact h ⟨input, rfl⟩
    simp [jsonRemoveComments_cons_cons, blockState, CommentState.write, hclose]

/-- Of a line comment outside of strings the end of the line is left. -/
theorem jsonRemoveComments_lineComment {body : Buffer} (h : 0x0a ∉ body) (rest : Buffer) :
    jsonRemoveComments lineState (body ++ 0x0a :: rest) =
      0x0a :: jsonRemoveComments Quote.outside.state rest := by
  induction body with
  | nil => rw [List.nil_append, jsonRemoveComments_line, if_pos rfl]
  | cons c body ih =>
    have hc : c ≠ 0x0a := fun hc => h (hc ▸ List.mem_cons_self)
    rw [List.cons_append, jsonRemoveComments_line, if_neg hc]
    exact ih fun hmem => h (List.mem_cons_of_mem _ hmem)

/-- A line comment may also end with the text. -/
theorem jsonRemoveComments_lastComment {body : Buffer} (h : 0x0a ∉ body) :
    jsonRemoveComments lineState body = [] := by
  induction body with
  | nil => rfl
  | cons c body ih =>
    have hc : c ≠ 0x0a := fun hc => h (hc ▸ List.mem_cons_self)
    rw [jsonRemoveComments_line, if_neg hc]
    exact ih fun hmem => h (List.mem_cons_of_mem _ hmem)

/-- Of a block comment outside of strings nothing is left. -/
theorem jsonRemoveComments_blockComment {body : Buffer} (h : ¬ [0x2a, 0x2f] <:+: body)
    (rest : Buffer) :
    jsonRemoveComments blockState (body ++ 0x2a :: 0x2f :: rest) =
      jsonRemoveComments Quote.outside.state rest := by
  induction body with
  | nil => exact jsonRemoveComments_endBlock rest
  | cons c body ih =>
    have hopen : ¬ [0x2a, 0x2f] <+: c :: (body ++ 0x2a :: 0x2f :: rest) := by
      rintro ⟨tail, htail⟩
      obtain ⟨hstar, hrest⟩ := List.cons.inj htail
      subst hstar
      cases body with
      | nil => exact absurd (List.cons.inj hrest).1 (by decide)
      | cons d body =>
        obtain ⟨hslash, -⟩ := List.cons.inj hrest
        subst hslash
        exact h ⟨[], body, rfl⟩
    rw [List.cons_append, jsonRemoveComments_block hopen]
    refine ih fun hinfix => h ?_
    exact hinfix.trans (List.suffix_cons c body).isInfix

/-! ### Strings -/

/-- A comment marker, and what follows it. -/
def StartsComment (input : Buffer) : Prop :=
  ∃ next rest, input = 0x2f :: next :: rest ∧ (next = 0x2f ∨ next = 0x2a)

/-- A comment begins with a slash. -/
theorem not_startsComment_cons {c : UInt8} (hc : c ≠ 0x2f) (input : Buffer) :
    ¬ StartsComment (c :: input) := by
  rintro ⟨next, rest, heq, -⟩
  exact hc (List.cons.inj heq).1

/-- What is written from a state outside of strings on does not start with a comment marker. -/
theorem not_startsComment (input : Buffer) :
    ¬ StartsComment (jsonRemoveComments Quote.outside.state input) ∧
      ¬ StartsComment (jsonRemoveComments lineState input) ∧
      ¬ StartsComment (jsonRemoveComments blockState input) := by
  have hnil : ¬ StartsComment [] := by
    rintro ⟨next, rest, heq, -⟩
    exact nomatch heq
  -- a marker takes two characters, so the induction is on the length
  induction hlen : input.length using Nat.strongRecOn generalizing input with
  | ind n ih =>
    subst hlen
    cases input with
    | nil => exact ⟨hnil, hnil, hnil⟩
    | cons c input =>
      have hrest := ih input.length (by simp) input rfl
      refine ⟨?_, ?_, ?_⟩
      · by_cases hc : c = 0x2f
        · subst hc
          cases input with
          | nil =>
            rintro ⟨next, rest, heq, -⟩
            exact nomatch heq
          | cons next input =>
            have hafter := ih input.length (by simp only [List.length_cons]; omega) input rfl
            by_cases hslash : next = 0x2f
            · subst hslash
              rw [jsonRemoveComments_startLine]
              exact hafter.2.1
            · by_cases hstar : next = 0x2a
              · subst hstar
                rw [jsonRemoveComments_startBlock]
                exact hafter.2.2
              · have hnext : ¬ (next = 0x2f ∨ next = 0x2a) := not_or.mpr ⟨hslash, hstar⟩
                rw [jsonRemoveComments_slash hnext]
                rintro ⟨next', rest, heq, hmarker⟩
                obtain ⟨-, heq⟩ := List.cons.inj heq
                exact hnext ((List.cons.inj heq).1 ▸ hmarker)
        · rw [jsonRemoveComments_outside hc]
          exact not_startsComment_cons hc _
      · rw [jsonRemoveComments_line]
        split
        · exact not_startsComment_cons (by decide) _
        · exact hrest.2.1
      · by_cases hclose : [0x2a, 0x2f] <+: c :: input
        · obtain ⟨tail, htail⟩ := hclose
          have hlen : tail.length < (c :: input).length := by
            rw [← htail, List.length_append]
            exact Nat.lt_add_of_pos_left (by decide)
          have hafter := ih tail.length hlen tail rfl
          rw [← htail]
          have hend := jsonRemoveComments_endBlock tail
          exact hend ▸ hafter.1
        · rw [jsonRemoveComments_block hclose]
          exact hrest.2.2

/-- A string that is read to its end is written as it is. -/
theorem jsonRemoveComments_read {q q' : Quote} {cs : Buffer} (h : q.read cs = some q')
    (hlast : cs.getLast? ≠ some 0x2f) (rest : Buffer) :
    jsonRemoveComments q.state (cs ++ rest) = cs ++ jsonRemoveComments q'.state rest := by
  -- the induction follows the reader, which is in no string or in one of the two
  induction q, cs using Quote.read.induct with
  | case1 q =>
    cases h
    rfl
  | case2 c cs ih =>
    rw [Quote.read] at h
    have hsingle : Quote.single.read cs = some .single := by
      clear h ih hlast
      induction cs with
      | nil => rfl
      | cons d cs ih => rw [Quote.read, ih]
    obtain rfl : Quote.single = q' := Option.some.inj (hsingle.symm.trans h)
    rw [jsonRemoveComments_single, jsonRemoveComments_single]
  | case3 c cs ih =>
    rw [Quote.read] at h
    rw [List.cons_append, jsonRemoveComments_double, List.cons_append]
    cases cs with
    | nil =>
      cases h
      rfl
    | cons d cs => rw [ih h (by rwa [List.getLast?_cons_cons] at hlast)]
  | case4 c =>
    cases h
    have hc : c ≠ 0x2f := fun hc => hlast (by rw [hc]; rfl)
    exact jsonRemoveComments_outside hc rest
  | case5 next cs hmarker =>
    rw [Quote.read, if_pos rfl, if_pos hmarker] at h
    exact nomatch h
  | case6 next cs hmarker ih =>
    rw [Quote.read, if_pos rfl, if_neg hmarker] at h
    rw [List.cons_append, List.cons_append, jsonRemoveComments_slash hmarker]
    cases cs with
    | nil =>
      cases h
      rfl
    | cons d cs =>
      rw [ih h (by rwa [List.getLast?_cons_cons, List.getLast?_cons_cons] at hlast)]
      rfl
  | case7 c next cs hc ih =>
    rw [Quote.read, if_neg hc] at h
    rw [List.getLast?_cons_cons] at hlast
    have hnext := ih h hlast
    rw [List.cons_append, jsonRemoveComments_outside hc, hnext]
    rfl

/-- A string with a marker outside of what the function takes for strings is not written. -/
theorem jsonRemoveComments_ne {q : Quote} {cs : Buffer} (h : q.read cs = none)
    (rest output : Buffer) : jsonRemoveComments q.state (cs ++ rest) ≠ cs ++ output := by
  -- the induction follows the reader up to the place where it finds a comment
  induction q, cs using Quote.read.induct with
  | case1 q => exact nomatch h
  | case2 c cs ih =>
    rw [Quote.read] at h
    intro heq
    rw [jsonRemoveComments_single] at heq
    refine ih h ?_
    rw [jsonRemoveComments_single]
    exact (List.cons.inj heq).2
  | case3 c cs ih =>
    rw [Quote.read] at h
    rw [List.cons_append, jsonRemoveComments_double]
    exact fun heq => ih h (List.cons.inj heq).2
  | case4 c => exact nomatch h
  | case5 next cs hmarker =>
    intro heq
    rw [List.cons_append, List.cons_append] at heq
    have hstarts : StartsComment (jsonRemoveComments Quote.outside.state
        (0x2f :: next :: (cs ++ rest))) := ⟨next, cs ++ output, heq, hmarker⟩
    exact (not_startsComment _).1 hstarts
  | case6 next cs hmarker ih =>
    rw [Quote.read, if_pos rfl, if_neg hmarker] at h
    intro heq
    rw [List.cons_append, List.cons_append, jsonRemoveComments_slash hmarker] at heq
    exact ih h (List.cons.inj (List.cons.inj heq).2).2
  | case7 c next cs hc ih =>
    rw [Quote.read, if_neg hc] at h
    intro heq
    rw [List.cons_append, jsonRemoveComments_outside hc] at heq
    exact ih h (List.cons.inj heq).2

/-! ### Whole texts -/

variable {escapes : Bool}

/-- In a string every slash is written. -/
theorem jsonRemoveComments_slash_inside {q : Quote} (h : q ≠ .outside) (input : Buffer) :
    ∃ output, jsonRemoveComments q.state (0x2f :: input) = 0x2f :: output := by
  cases q with
  | outside => exact absurd rfl h
  | double => exact ⟨_, jsonRemoveComments_double 0x2f input⟩
  | single => exact ⟨_, jsonRemoveComments_single _⟩

/-- A quoted text ends with its quote. -/
theorem getLast?_quoted (quote : UInt8) (cs : Buffer) :
    (quote :: cs ++ [quote]).getLast? = some quote := by
  rw [List.getLast?_append]
  rfl

/-- A piece that is read to its end loses its comment and nothing else. -/
theorem jsonRemoveComments_piece {q q' : Quote} {p : Piece escapes} (h : p.read q = some q')
    (rest : Buffer) :
    jsonRemoveComments q.state (p.text ++ rest) =
      p.kept ++ jsonRemoveComments q'.state rest := by
  cases p with
  | token c hc =>
    refine jsonRemoveComments_read h ?_ rest
    exact fun hlast => hc.2.2 (Option.some.inj hlast)
  | doubleQuoted chars =>
    refine jsonRemoveComments_read h ?_ rest
    rw [Piece.text, getLast?_quoted]
    decide
  | singleQuoted chars =>
    refine jsonRemoveComments_read h ?_ rest
    rw [Piece.text, getLast?_quoted]
    decide
  | lineComment body hbody =>
    rw [Piece.read] at h
    split at h
    · next hq =>
      cases h
      subst hq
      have htext : (Piece.lineComment body hbody : Piece escapes).text ++ rest =
          0x2f :: 0x2f :: (body ++ 0x0a :: rest) := by
        simp [Piece.text]
      rw [htext, jsonRemoveComments_startLine, jsonRemoveComments_lineComment hbody]
      rfl
    · exact nomatch h
  | blockComment body hbody =>
    rw [Piece.read] at h
    split at h
    · next hq =>
      cases h
      subst hq
      have htext : (Piece.blockComment body hbody : Piece escapes).text ++ rest =
          0x2f :: 0x2a :: (body ++ 0x2a :: 0x2f :: rest) := by
        simp [Piece.text]
      rw [htext, jsonRemoveComments_startBlock, jsonRemoveComments_blockComment hbody]
      rfl
    · exact nomatch h

/-- The first piece that is not read to its end is seen in the result. -/
theorem jsonRemoveComments_piece_ne {q : Quote} {p : Piece escapes} (h : p.read q = none)
    (rest : Buffer) {output : Buffer} (houtput : output.head? ≠ some 0x2f) :
    jsonRemoveComments q.state (p.text ++ rest) ≠ p.kept ++ output := by
  cases p with
  | token c hc => exact jsonRemoveComments_ne h rest output
  | doubleQuoted chars => exact jsonRemoveComments_ne h rest output
  | singleQuoted chars => exact jsonRemoveComments_ne h rest output
  | lineComment body hbody =>
    rw [Piece.read] at h
    split at h
    · exact nomatch h
    · next hq =>
      obtain ⟨tail, htail⟩ := jsonRemoveComments_slash_inside hq (0x2f :: body ++ [0x0a] ++ rest)
      intro heq
      have hhead := htail.symm.trans heq
      exact absurd (List.cons.inj hhead).1 (by decide)
  | blockComment body hbody =>
    rw [Piece.read] at h
    split at h
    · exact nomatch h
    · next hq =>
      obtain ⟨tail, htail⟩ :=
        jsonRemoveComments_slash_inside hq (0x2a :: body ++ [0x2a, 0x2f] ++ rest)
      intro heq
      have hhead : 0x2f :: tail = output := htail.symm.trans heq
      exact houtput (by rw [← hhead]; rfl)

/-- Without its comments a text does not start with a slash. -/
theorem head?_kept (pieces : List (Piece escapes)) :
    (pieces.flatMap Piece.kept).head? ≠ some 0x2f := by
  induction pieces with
  | nil => exact nofun
  | cons p pieces ih =>
    rw [List.flatMap_cons]
    cases p with
    | token c hc => exact fun hhead => hc.2.2 (Option.some.inj hhead)
    | doubleQuoted chars => exact fun hhead => absurd (Option.some.inj hhead) (by decide)
    | singleQuoted chars => exact fun hhead => absurd (Option.some.inj hhead) (by decide)
    | lineComment body hbody => exact fun hhead => absurd (Option.some.inj hhead) (by decide)
    | blockComment body hbody => exact ih

/-- What is left of a document is its text without comments exactly when each piece is read as it
    was meant. -/
theorem jsonRemoveComments_eq_kept_iff (q : Quote) (pieces : List (Piece escapes))
    (last : Option { body : Buffer // 0x0a ∉ body }) :
    jsonRemoveComments q.state (pieces.flatMap Piece.text ++
        (last.elim [] fun body => 0x2f :: 0x2f :: body.val)) = pieces.flatMap Piece.kept ↔
      Tracked q pieces last := by
  -- the induction is on the pieces, each of which has to begin where the reader expects it
  induction pieces generalizing q with
  | nil =>
    rw [List.flatMap_nil, List.flatMap_nil, List.nil_append, Tracked]
    cases last with
    | none =>
      constructor
      · exact fun _ hsome => nomatch hsome
      · exact fun _ => rfl
    -- the last comment is removed if the reader is in no string there
    | some body =>
      constructor
      · intro heq _
        by_contra hq
        obtain ⟨tail, htail⟩ := jsonRemoveComments_slash_inside hq (0x2f :: body.val)
        exact nomatch htail.symm.trans heq
      · intro hq
        rw [hq rfl]
        exact (jsonRemoveComments_startLine body.val).trans
          (jsonRemoveComments_lastComment body.property)
  | cons p pieces ih =>
    rw [List.flatMap_cons, List.flatMap_cons, List.append_assoc, Tracked]
    cases hread : p.read q with
    | none =>
      -- a piece that is not read is not left as it is
      constructor
      · intro heq
        exact absurd heq (jsonRemoveComments_piece_ne hread _ (head?_kept pieces))
      · exact False.elim
    | some q' => rw [jsonRemoveComments_piece hread, List.append_cancel_left_eq, ih q']

/-- `json_remove_comments` removes exactly the comments of a text if it sees each comment outside
    of strings, and each comment marker of a string inside. -/
theorem json_comments_removed_iff (doc : Document escapes) :
    jsonRemoveComments {} doc.text = doc.kept ↔ Tracked .outside doc.pieces doc.last :=
  jsonRemoveComments_eq_kept_iff .outside doc.pieces doc.last

/-- After `'a'` the comment `//b` stays, and after `"\""` too. -/
theorem json_comments_kept :
    (let doc : Document false :=
      ⟨[.singleQuoted [.plain 0x61 (by decide)], .lineComment [0x62] (by decide)], none⟩
    jsonRemoveComments {} doc.text ≠ doc.kept) ∧
    (let doc : Document false :=
      ⟨[.doubleQuoted [.escaped 0x22 rfl], .lineComment [0x62] (by decide)], none⟩
    jsonRemoveComments {} doc.text ≠ doc.kept) := by
  decide

/-! ### Texts without the two kinds of strings -/

/-- A piece that leaves the function outside of strings: there are no single quotes, and no `"`
    is escaped. -/
def JsonText.Piece.Simple : Piece escapes → Prop
  | .doubleQuoted chars => ∀ c ∈ chars, c.text ≠ [0x5c, 0x22]
  | .singleQuoted _ => False
  | _ => True

/-- Characters other than the quote stay inside the string. -/
theorem read_double_append {cs : Buffer} (h : 0x22 ∉ cs) (rest : Buffer) :
    Quote.double.read (cs ++ rest) = Quote.double.read rest := by
  induction cs with
  | nil => rfl
  | cons c cs ih =>
    have hc : c ≠ 0x22 := fun hc => h (hc ▸ List.mem_cons_self)
    rw [List.cons_append, Quote.read, if_neg hc]
    exact ih fun hmem => h (List.mem_cons_of_mem _ hmem)

/-- A simple piece is read as it was meant. -/
theorem read_of_simple {p : Piece escapes} (h : p.Simple) :
    p.read .outside = some .outside := by
  cases p with
  | token c hc =>
    show some (Quote.opened c) = some .outside
    rw [Quote.opened, if_neg hc.1, if_neg hc.2.1]
  | doubleQuoted chars =>
    -- without an escaped quote the string ends where it should
    have hbody : (0x22 : UInt8) ∉ chars.flatMap StringChar.text := by
      intro hmem
      obtain ⟨c, hc, hmem⟩ := List.mem_flatMap.mp hmem
      have hplain := h c hc
      cases c with
      | plain c hne => exact hne.1 (List.mem_singleton.mp hmem).symm
      | escaped c _ =>
        simp only [StringChar.text, List.mem_cons, List.not_mem_nil, or_false] at hmem
        obtain hmem | hmem := hmem
        · exact absurd hmem (by decide)
        · exact hplain (by rw [hmem]; rfl)
    have hopen : Quote.outside.read (Piece.doubleQuoted chars : Piece escapes).text =
        Quote.double.read (chars.flatMap StringChar.text ++ [0x22]) := by
      rw [Piece.text, List.cons_append]
      cases chars.flatMap StringChar.text ++ [0x22] <;> rfl
    show Quote.outside.read (Piece.doubleQuoted chars : Piece escapes).text = some .outside
    rw [hopen, read_double_append hbody]
    rfl
  | singleQuoted chars => exact h.elim
  | lineComment body hbody => rfl
  | blockComment body hbody => rfl

/-- Texts with neither are handled. -/
theorem jsonRemoveComments_of_simple {doc : Document escapes}
    (h : ∀ p ∈ doc.pieces, p.Simple) : jsonRemoveComments {} doc.text = doc.kept := by
  have htracked : ∀ pieces : List (Piece escapes), (∀ p ∈ pieces, p.Simple) →
      Tracked .outside pieces doc.last := by
    intro pieces hsimple
    induction pieces with
    | nil => exact fun _ => rfl
    | cons p pieces ih =>
      rw [Tracked, read_of_simple (hsimple p List.mem_cons_self)]
      exact ih fun p' hp' => hsimple p' (List.mem_cons_of_mem _ hp')
  exact (jsonRemoveComments_eq_kept_iff .outside _ _).mpr (htracked _ h)

end AsyncMqtt
