import AnnotationMetadata.Json.Token
import AnnotationMetadata.Json.Writer

set_option autoImplicit false

/-!
# Scanning written text

Text is scanned one character at a time, and a number or a word is complete only when the
next character is seen. `Spells` says which tokens a text stands for, whatever punctuation
follows it, so that what is true of the parts of a text holds of the whole.
-/

namespace AnnotationMetadata.Json

/-! ## Runs of the scanner -/

/-- The tokens that characters complete, from one state to another. -/
inductive Scans : Scanning → List Char → List Token → Scanning → Prop where
  | nil (state : Scanning) : Scans state [] [] state
  | cons {state next last : Scanning} {c : Char} {rest : List Char} {first tokens : List Token}
      (step : state.step? c = some (next, first)) (scanned : Scans next rest tokens last) :
      Scans state (c :: rest) (first ++ tokens) last

/-- A character that completes no token. -/
theorem Scans.silent {state next last : Scanning} {c : Char} {rest : List Char}
    {tokens : List Token} (step : state.step? c = some (next, []))
    (scanned : Scans next rest tokens last) : Scans state (c :: rest) tokens last :=
  .cons step scanned

theorem Scans.append {state middle last : Scanning} {before after : List Char}
    {first second : List Token} (start : Scans state before first middle)
    (others : Scans middle after second last) :
    Scans state (before ++ after) (first ++ second) last := by
  induction start with
  | nil => exact others
  | cons step _ ih =>
    rw [List.cons_append, List.append_assoc]
    exact .cons step (ih others)

private theorem Scans.scan?_eq {state last : Scanning} {chars : List Char} {tokens : List Token}
    (scanned : Scans state chars tokens last) (found : List Token) :
    scan? state found chars = last.finish?.map fun more => found.reverse ++ tokens ++ more := by
  induction scanned generalizing found with
  | nil => rw [scan?, List.append_nil]
  | cons step _ ih =>
    rw [scan?, step]
    simp only [ih, List.reverse_append, List.reverse_reverse, List.append_assoc]

/-- What ends a token under way completes it: a character that continues neither words nor
numbers begins what comes next. -/
structure Scanning.Settles (state : Scanning) (last : List Token) : Prop where
  finish : state.finish? = some last
  ends : ∀ c, c.isLower = false → isNumberChar c = false →
    state.step? c = (begin? c).map fun next => (next.1, last ++ next.2)

theorem settles_between : Scanning.between.Settles [] where
  finish := rfl
  ends c _ _ := by
    rw [Scanning.step?]
    cases begin? c <;> rfl

theorem completing?_some (token : Token) (c : Char) :
    completing? (some token) c = (begin? c).map fun next => (next.1, [token] ++ next.2) := by
  unfold completing?
  cases begin? c <;> rfl

theorem settles_word {reversed : List Char} {token : Token}
    (word : ofWord? reversed.reverse = some token) : (Scanning.word reversed).Settles [token] where
  finish := by rw [Scanning.finish?, word]; rfl
  ends c lower _ := by
    rw [Scanning.step?, lower, word]
    exact completing?_some token c

theorem settles_number {reversed : List Char} {token : Token}
    (number : ofNumber? reversed.reverse = some token) :
    (Scanning.number reversed).Settles [token] where
  finish := by rw [Scanning.finish?, number]; rfl
  ends c _ other := by
    rw [Scanning.step?, other, number]
    exact completing?_some token c

/-! ## What text spells -/

/-- The characters stand for the tokens, the last of which may be under way. -/
inductive Spells : List Char → List Token → Prop where
  | intro {chars : List Char} {done last : List Token} {state : Scanning}
      (scanned : Scans .between chars done state) (settles : state.Settles last) :
      Spells chars (done ++ last)

theorem Spells.nil : Spells [] [] :=
  .intro (.nil .between) settles_between

/-- A character that is a token of its own and continues no other. -/
structure Punctuates (c : Char) (token : Token) : Prop where
  begins : begin? c = some (.between, [token])
  lower : c.isLower = false
  number : isNumberChar c = false

theorem Spells.punctuated {before after : List Char} {first second : List Token} {c : Char}
    {token : Token} (start : Spells before first) (mark : Punctuates c token)
    (others : Spells after second) : Spells (before ++ c :: after) (first ++ token :: second) := by
  obtain ⟨scanned, settles⟩ := start
  obtain ⟨rest, settlesLater⟩ := others
  have step := settles.ends c mark.lower mark.number
  rw [mark.begins] at step
  have whole := Spells.intro (scanned.append (.cons step rest)) settlesLater
  simpa using whole

theorem tokens?_of_spells {text : String} {tokens : List Token}
    (spells : Spells text.toList tokens) : tokens? text = some tokens := by
  rw [tokens?]
  generalize text.toList = chars at spells
  obtain ⟨scanned, settles⟩ := spells
  rw [scanned.scan?_eq, settles.finish]
  rfl

/-! ## Strings -/

theorem hexValue?_digitChar : ∀ digit < 16, hexValue? (Nat.digitChar digit) = some digit := by
  decide

private theorem scans_named {reversed : List Char} {name c : Char} (plain : unescape? name = some c)
    (other : name ≠ 'u') :
    Scans (.text ⟨reversed, none, true⟩) ['\\', name] [] (.text ⟨c :: reversed, none, true⟩) := by
  refine .silent rfl (.silent ?_ (.nil _))
  rw [Scanning.step?, if_neg other, plain]
  rfl

private theorem scans_controlEscape {reversed : List Char} {c : Char} (control : c.toNat < 0x20) :
    Scans (.text ⟨reversed, none, true⟩) (controlEscape c) []
      (.text ⟨c :: reversed, none, true⟩) := by
  have high := hexValue?_digitChar (c.toNat / 16) (by omega)
  have low := hexValue?_digitChar (c.toNat % 16) (Nat.mod_lt _ (by decide))
  have value : c.toNat / 16 * 16 + c.toNat % 16 = c.toNat := by omega
  have pushed : Spelling.pushUnit ⟨reversed, none, true⟩ c.toNat = ⟨c :: reversed, none, true⟩ := by
    rw [Spelling.pushUnit, if_neg (by omega), if_neg (by omega), Char.ofNat_toNat]
    rfl
  have first : Scanning.step? (.unit ⟨reversed, none, true⟩ 2 0) (Nat.digitChar (c.toNat / 16)) =
      some (.unit ⟨reversed, none, true⟩ 1 (c.toNat / 16), []) := by
    rw [Scanning.step?, high]
    simp
  have second : Scanning.step? (.unit ⟨reversed, none, true⟩ 1 (c.toNat / 16))
      (Nat.digitChar (c.toNat % 16)) = some (.text ⟨c :: reversed, none, true⟩, []) := by
    rw [Scanning.step?, low]
    simp [value, pushed]
  exact .silent rfl (.silent rfl (.silent rfl (.silent rfl (.silent first
    (.silent second (.nil _))))))

private theorem scans_escape (reversed : List Char) (c : Char) :
    Scans (.text ⟨reversed, none, true⟩) (escape c) [] (.text ⟨c :: reversed, none, true⟩) := by
  have named : ∀ name plain, unescape? name = some plain → name ≠ 'u' → c = plain →
      Scans (.text ⟨reversed, none, true⟩) ['\\', name] []
        (.text ⟨c :: reversed, none, true⟩) := by
    rintro name plain found other rfl
    exact scans_named found other
  unfold escape
  split
  · exact named '"' '"' rfl (by decide) ‹_›
  split
  · exact named '\\' '\\' rfl (by decide) ‹_›
  split
  · exact named 'b' '\x08' rfl (by decide) ‹_›
  split
  · exact named 'f' '\x0c' rfl (by decide) ‹_›
  split
  · exact named 'n' '\n' rfl (by decide) ‹_›
  split
  · exact named 'r' '\r' rfl (by decide) ‹_›
  split
  · exact named 't' '\t' rfl (by decide) ‹_›
  split
  · exact scans_controlEscape ‹_›
  · next unquoted unescaped _ _ _ _ _ printed =>
    refine .silent ?_ (.nil _)
    rw [Scanning.step?, if_neg unquoted, if_neg unescaped, if_neg printed]
    rfl

private theorem scans_escaped (text reversed : List Char) :
    Scans (.text ⟨reversed, none, true⟩) (text.flatMap escape) []
      (.text ⟨text.reverse ++ reversed, none, true⟩) := by
  induction text generalizing reversed with
  | nil => exact .nil _
  | cons c rest ih =>
    rw [List.flatMap_cons, List.reverse_cons, List.append_assoc]
    exact (scans_escape reversed c).append (ih (c :: reversed))

theorem spells_quote (text : String) : Spells (quote text).toList [.text (some text)] := by
  have content : Spelling.content ⟨text.toList.reverse ++ [], none, true⟩ = some text := by
    rw [Spelling.content, List.append_nil, List.reverse_reverse, String.ofList_toList]
    rfl
  have closed : Scans (.text ⟨text.toList.reverse ++ [], none, true⟩) ['"'] [.text (some text)]
      .between := by
    have step : Scanning.step? (.text ⟨text.toList.reverse ++ [], none, true⟩) '"' =
        some (.between, [.text (some text)]) := by
      rw [← content]
      rfl
    exact .cons step (.nil .between)
  rw [quote, String.toList_ofList]
  exact .intro (.silent rfl ((scans_escaped text.toList []).append closed)) settles_between

/-! ## Words -/

theorem spells_true : Spells "true".toList [.scalar (.bool true)] :=
  .intro (.silent rfl (.silent rfl (.silent rfl (.silent rfl (.nil _))))) (settles_word rfl)

theorem spells_false : Spells "false".toList [.scalar (.bool false)] :=
  .intro (.silent rfl (.silent rfl (.silent rfl (.silent rfl (.silent rfl (.nil _))))))
    (settles_word rfl)

theorem spells_null : Spells "null".toList [.scalar .null] :=
  .intro (.silent rfl (.silent rfl (.silent rfl (.silent rfl (.nil _))))) (settles_word rfl)

end AnnotationMetadata.Json
