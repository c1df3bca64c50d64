import MappingMetadata.Json.Printer
import MappingMetadata.Json.Token
import MappingMetadata.Proofs.Json.Numerals

/-!
# The tokens of printed data

`tokens` is the list of tokens that a value should be cut into, read off the value itself.

**Theorem (`tokens?_print`).** The printed text of a value is cut into the tokens of the value.

The automaton learns that a number or a word has ended only from the next character, so what is
shown of each piece of text is what the automaton does with it *and any rest* (`lexed`), and for
numbers and words the rest must not go on with them (`Stops`). What is printed after a value
always begins with a comma or a line break.
-/

namespace MappingMetadata.Json

/-! ## The tokens of a value -/

mutual

/-- The tokens of a value. -/
def tokens : Data → List Token
  | .null => [.leaf .null]
  | .bool b => [.leaf (.bool b)]
  | .int n => [.leaf (.int n.toInt)]
  | .text s => [.string (.text s)]
  | .list [] => [.openList, .closeList]
  | .list (d :: ds) => .openList :: (tokens d ++ itemTokens ds ++ [.closeList])
  | .record [] => [.openMap, .closeMap]
  | .record ((k, d) :: ms) =>
    .openMap :: .string (.text k) :: .colon :: (tokens d ++ memberTokens ms ++ [.closeMap])

/-- The tokens of the items after the first. -/
def itemTokens : List Data → List Token
  | [] => []
  | d :: ds => .comma :: (tokens d ++ itemTokens ds)

/-- The tokens of the members after the first. -/
def memberTokens : List (String × Data) → List Token
  | [] => []
  | (k, d) :: ms => .comma :: .string (.text k) :: .colon :: (tokens d ++ memberTokens ms)

end

namespace Lexer

/-- What the automaton makes of a text, up to its end. -/
def lexed (l : Lexer) (cs : List Char) : Option Lexer := (cs.foldlM step l).bind close

theorem lexed_cons (l : Lexer) (c : Char) (cs : List Char) :
    lexed l (c :: cs) = (step l c).bind fun l => lexed l cs := by
  rw [lexed, List.foldlM_cons]
  cases step l c <;> rfl

theorem lexed_cons_of_step {l l' : Lexer} {c : Char} (h : step l c = some l') (cs : List Char) :
    lexed l (c :: cs) = lexed l' cs := by
  rw [lexed_cons, h, Option.bind_some]

/-! ## Signs and line breaks -/

variable (ts : List Token)

theorem lexed_sign {c : Char} {t : Token} (h : step (ts, .between) c = some (t :: ts, .between))
    (cs : List Char) : lexed (ts, .between) (c :: cs) = lexed (t :: ts, .between) cs :=
  lexed_cons_of_step h cs

theorem lexed_blank (cs : List Char) :
    lexed (ts, .between) (' ' :: cs) = lexed (ts, .between) cs := lexed_cons_of_step rfl cs

theorem lexed_newline (level : Nat) (cs : List Char) :
    lexed (ts, .between) (newline level ++ cs) = lexed (ts, .between) cs := by
  have hblanks : ∀ n, lexed (ts, .between) (List.replicate n ' ' ++ cs) =
      lexed (ts, .between) cs := by
    intro n
    induction n with
    | zero => rfl
    | succ n ih => rw [List.replicate_succ, List.cons_append, lexed_blank, ih]
  rw [newline, List.cons_append, lexed_cons_of_step rfl, hblanks]

/-! ## Strings -/

theorem natural?_hexUnit {n : Nat} (h : n < 0x20) :
    Text.natural? 16 (hexUnit n) = some n ∧
      (Text.digit? (Nat.digitChar (n / 16))).isNone = false ∧
      (Text.digit? (Nat.digitChar (n % 16))).isNone = false := by
  have hall : ∀ n < 0x20, Text.natural? 16 (hexUnit n) = some n ∧
      (Text.digit? (Nat.digitChar (n / 16))).isNone = false ∧
      (Text.digit? (Nat.digitChar (n % 16))).isNone = false := by decide +kernel
  exact hall n h

theorem pushUnit_of_lt (p : OpenString) {c : Char} (h : c.toNat < 0x20) :
    p.pushUnit c.toNat = p.push c := by
  have hhigh : ¬ (0xD800 ≤ c.toNat ∧ c.toNat < 0xDC00) := by omega
  have hlow : ¬ (0xDC00 ≤ c.toNat ∧ c.toNat < 0xE000) := by omega
  rw [OpenString.pushUnit, if_neg hhigh, if_neg hlow, Char.ofNat_toNat]

/-- A character that is escaped by its code unit. -/
theorem lexed_unit (p : OpenString) {c : Char} (h : c.toNat < 0x20) (cs : List Char) :
    lexed (ts, .string p) ('\\' :: 'u' :: (hexUnit c.toNat ++ cs)) =
      lexed (ts, .string (p.push c)) cs := by
  obtain ⟨hvalue, hhigh, hlow⟩ := natural?_hexUnit h
  have hthird : step (ts, .unit p ['0', '0']) (Nat.digitChar (c.toNat / 16)) =
      some (ts, .unit p ['0', '0', Nat.digitChar (c.toNat / 16)]) := by
    rw [step, hhigh]
    rfl
  have hfourth : step (ts, .unit p ['0', '0', Nat.digitChar (c.toNat / 16)])
      (Nat.digitChar (c.toNat % 16)) = some (ts, .string (p.push c)) := by
    have hwhole : Text.natural? 16 (['0', '0', Nat.digitChar (c.toNat / 16)] ++
        [Nat.digitChar (c.toNat % 16)]) = some c.toNat := hvalue
    rw [step, hlow, hwhole, ← pushUnit_of_lt p h]
    rfl
  calc lexed (ts, .string p) ('\\' :: 'u' :: (hexUnit c.toNat ++ cs))
      = lexed (ts, .unit p ['0', '0']) (Nat.digitChar (c.toNat / 16) ::
          Nat.digitChar (c.toNat % 16) :: cs) := rfl
    _ = lexed (ts, .string (p.push c)) cs := by
      rw [lexed_cons_of_step hthird, lexed_cons_of_step hfourth]

/-- Whatever is written for a character is read as this character. -/
theorem lexed_escape (p : OpenString) (c : Char) (cs : List Char) :
    lexed (ts, .string p) (escape c ++ cs) = lexed (ts, .string (p.push c)) cs := by
  have hletter : ∀ letter c : Char, letter ≠ 'u' → escaped? letter = some c →
      lexed (ts, .string p) (['\\', letter] ++ cs) = lexed (ts, .string (p.push c)) cs := by
    intro letter c hu hletter
    have hstep : step (ts, .escape p) letter = some (ts, .string (p.push c)) := by
      rw [step, if_neg hu, hletter, Option.map_some]
    exact (lexed_cons_of_step rfl _).trans (lexed_cons_of_step hstep cs)
  unfold escape
  split
  · next h => exact h ▸ hletter '"' '"' (by decide) rfl
  split
  · next h => exact h ▸ hletter '\\' '\\' (by decide) rfl
  split
  · next h => exact h ▸ hletter 'n' '\n' (by decide) rfl
  split
  · next h => exact h ▸ hletter 'r' '\r' (by decide) rfl
  split
  · next h => exact h ▸ hletter 't' '\t' (by decide) rfl
  split
  · next h => exact h ▸ hletter 'b' '\x08' (by decide) rfl
  split
  · next h => exact h ▸ hletter 'f' '\x0C' (by decide) rfl
  split
  · next h => exact lexed_unit ts p h cs
  · next hquote hbackslash _ _ _ _ _ hcontrol =>
    have hstep : step (ts, .string p) c = some (ts, .string (p.push c)) := by
      rw [step, if_neg hquote, if_neg hbackslash, if_neg hcontrol]
    exact lexed_cons_of_step hstep cs

theorem lexed_escapes (chars : List Char) (p : OpenString) (cs : List Char) :
    lexed (ts, .string p) (chars.flatMap escape ++ cs) =
      lexed (ts, .string (chars.foldl OpenString.push p)) cs := by
  induction chars generalizing p with
  | nil => rfl
  | cons c chars ih => rw [List.flatMap_cons, List.append_assoc, lexed_escape, ih, List.foldl_cons]

theorem foldl_push (chars read : List Char) :
    chars.foldl OpenString.push { chars := read } = { chars := chars.reverse ++ read } := by
  induction chars generalizing read with
  | nil => rfl
  | cons c chars ih =>
    have hpush : OpenString.push { chars := read } c = { chars := c :: read } := rfl
    rw [List.foldl_cons, hpush, ih, List.reverse_cons, List.append_assoc, List.singleton_append]

theorem lexed_quote (s : String) (cs : List Char) :
    lexed (ts, .between) (quote s ++ cs) = lexed (.string (.text s) :: ts, .between) cs := by
  have hfinish : OpenString.finish (s.toList.foldl OpenString.push {}) = .text s := by
    have hread : s.toList.foldl OpenString.push {} = { chars := s.toList.reverse ++ [] } :=
      foldl_push s.toList []
    rw [hread]
    simp [OpenString.finish]
  rw [quote, List.cons_append, List.cons_append, List.append_assoc, lexed_cons_of_step rfl,
    lexed_escapes, List.singleton_append]
  exact lexed_cons_of_step (by rw [← hfinish]; rfl) cs

/-! ## Numbers and words -/

/-- The text goes on with no number and no word. -/
def Stops (cs : List Char) : Prop := ∀ c ∈ cs.head?, ¬ isNumberChar c ∧ ¬ isWordChar c

variable {ts}

/-- At the end of a number the automaton stands where it would stand after the number. -/
theorem lexed_number_end {chars rest : List Char} {t : Tree} (h : number? chars.reverse = some t)
    (hrest : Stops rest) :
    lexed (ts, .number chars) rest = lexed (.leaf t :: ts, .between) rest := by
  have hclose : close (ts, .number chars) = some (.leaf t :: ts, .between) := by
    simp [close, h]
  cases rest with
  | nil => exact hclose
  | cons c cs =>
    have hc : ¬ isNumberChar c := (hrest c rfl).1
    rw [lexed_cons, lexed_cons, step, if_neg hc, hclose]
    rfl

theorem lexed_word_end {chars rest : List Char} {t : Tree}
    (h : word? (String.ofList chars.reverse) = some t) (hrest : Stops rest) :
    lexed (ts, .word chars) rest = lexed (.leaf t :: ts, .between) rest := by
  have hclose : close (ts, .word chars) = some (.leaf t :: ts, .between) := by
    simp [close, h]
  cases rest with
  | nil => exact hclose
  | cons c cs =>
    have hc : ¬ isWordChar c := (hrest c rfl).2
    rw [lexed_cons, lexed_cons, step, if_neg hc, hclose]
    rfl

theorem lexed_numberChars {cs : List Char} (h : ∀ c ∈ cs, isNumberChar c) (chars rest : List Char) :
    lexed (ts, .number chars) (cs ++ rest) = lexed (ts, .number (cs.reverse ++ chars)) rest := by
  induction cs generalizing chars with
  | nil => rfl
  | cons c cs ih =>
    rw [List.forall_mem_cons] at h
    have hstep : step (ts, .number chars) c = some (ts, .number (c :: chars)) := by
      rw [step, if_pos h.1]
    rw [List.cons_append, lexed_cons_of_step hstep, ih h.2, List.reverse_cons, List.append_assoc,
      List.singleton_append]

/-- A digit or a hyphen may stand anywhere in a number. -/
theorem isNumberChar_of_begins {c : Char} (h : Text.isDigit c || c = '-') : isNumberChar c := by
  have hdigit : (Text.isDigit c || c == '-') = true := h
  simp [isNumberChar, hdigit]

/-- A digit or a hyphen between tokens begins a number. -/
theorem step_number {c : Char} (h : Text.isDigit c || c = '-') :
    step (ts, .between) c = some (ts, .number [c]) := by
  have hblank : ¬ (c = ' ' ∨ c = '\t' ∨ c = '\n' ∨ c = '\r') := by
    rintro (rfl | rfl | rfl | rfl) <;> cases h
  have hquote : c ≠ '"' := by
    rintro rfl
    cases h
  rw [step, start, if_neg hblank, if_neg hquote, if_pos h]

/-- The characters of an integer. -/
theorem begins_of_mem_toString {n : Int} :
    ∀ c ∈ (toString n).toList, Text.isDigit c || c = '-' := by
  intro c hc
  rw [toList_toString, List.mem_append] at hc
  rcases hc with hc | hc
  · unfold signChars at hc
    split at hc
    · rw [List.mem_singleton.1 hc]
      rfl
    · cases hc
  · have hdigit : Text.isDigit c := Text.isDigit_of_mem_toDigits c hc
    rw [hdigit, Bool.true_or]

theorem lexed_int (n : Int64) {rest : List Char} (hrest : Stops rest) :
    lexed (ts, .between) ((toString n.toInt).toList ++ rest) =
      lexed (.leaf (.int n.toInt) :: ts, .between) rest := by
  have hfits : -Nat.pow 2 63 ≤ n.toInt ∧ n.toInt < Nat.pow 2 63 :=
    ⟨n.le_toInt, n.toInt_lt⟩
  have hnumber := number?_toString hfits
  have hchars := begins_of_mem_toString (n := n.toInt)
  cases hwritten : (toString n.toInt).toList with
  | nil =>
    rw [hwritten] at hnumber
    cases hnumber
  | cons c cs =>
    rw [hwritten] at hnumber hchars
    rw [List.forall_mem_cons] at hchars
    have hmore : ∀ c ∈ cs, isNumberChar c := fun c hc => isNumberChar_of_begins (hchars.2 c hc)
    have hstart : step (ts, .between) c = some (ts, .number [c]) := step_number hchars.1
    rw [List.cons_append, lexed_cons_of_step hstart, lexed_numberChars hmore]
    exact lexed_number_end (by simpa using hnumber) hrest

/-- A word that is gathered whole stands for its leaf. -/
theorem lexed_word {word rest : List Char} {t : Tree}
    (hgathered : ∀ rest, lexed (ts, .between) (word ++ rest) = lexed (ts, .word word.reverse) rest)
    (h : word? (String.ofList word) = some t) (hrest : Stops rest) :
    lexed (ts, .between) (word ++ rest) = lexed (.leaf t :: ts, .between) rest := by
  rw [hgathered]
  exact lexed_word_end (by rwa [List.reverse_reverse]) hrest

theorem lexed_null {rest : List Char} (hrest : Stops rest) :
    lexed (ts, .between) (['n', 'u', 'l', 'l'] ++ rest) =
      lexed (.leaf .null :: ts, .between) rest :=
  lexed_word (fun _ => rfl) (by simp [word?]) hrest

theorem lexed_true {rest : List Char} (hrest : Stops rest) :
    lexed (ts, .between) (['t', 'r', 'u', 'e'] ++ rest) =
      lexed (.leaf (.bool true) :: ts, .between) rest :=
  lexed_word (fun _ => rfl) (by simp [word?]) hrest

theorem lexed_false {rest : List Char} (hrest : Stops rest) :
    lexed (ts, .between) (['f', 'a', 'l', 's', 'e'] ++ rest) =
      lexed (.leaf (.bool false) :: ts, .between) rest :=
  lexed_word (fun _ => rfl) (by simp [word?]) hrest

/-! ## Values -/

theorem stops_nil : Stops [] := nofun

theorem stops_newline (level : Nat) (cs : List Char) : Stops (newline level ++ cs) := by
  rintro c hc
  cases hc
  decide

theorem stops_printItems (level : Nat) (ds : List Data) {cs : List Char} (h : Stops cs) :
    Stops (printItems level ds ++ cs) := by
  cases ds with
  | nil => exact h
  | cons d ds =>
    rintro c hc
    cases hc
    decide

theorem stops_printMembers (level : Nat) (ms : List (String × Data)) {cs : List Char}
    (h : Stops cs) : Stops (printMembers level ms ++ cs) := by
  cases ms with
  | nil => exact h
  | cons m ms =>
    rintro c hc
    cases hc
    decide

mutual

theorem lexed_print (d : Data) (level : Nat) (ts : List Token) {rest : List Char}
    (hrest : Stops rest) : lexed (ts, .between) (print level d ++ rest) =
      lexed ((tokens d).reverse ++ ts, .between) rest := by
  match d with
  | .null => exact lexed_null hrest
  | .bool true => exact lexed_true hrest
  | .bool false => exact lexed_false hrest
  | .int n => exact lexed_int n hrest
  | .text s => exact lexed_quote ts s rest
  | .list [] => rfl
  | .list (d :: ds) =>
    have htext : print level (.list (d :: ds)) ++ rest =
        '[' :: (newline (level + 1) ++ (print (level + 1) d ++
          (printItems (level + 1) ds ++ (newline level ++ ']' :: rest)))) := by
      simp [print]
    have hclose : Stops (newline level ++ ']' :: rest) := stops_newline _ _
    rw [htext, lexed_sign _ rfl, lexed_newline, lexed_print d _ _ (stops_printItems _ _ hclose),
      lexed_printItems ds _ _ hclose, lexed_newline, lexed_sign _ rfl]
    simp [tokens]
  | .record [] => rfl
  | .record ((k, d) :: ms) =>
    have htext : print level (.record ((k, d) :: ms)) ++ rest = '\x7b' :: (newline (level + 1) ++
        (quote k ++ (':' :: ' ' :: (print (level + 1) d ++ (printMembers (level + 1) ms ++
          (newline level ++ '\x7d' :: rest)))))) := by
      simp [print]
    have hclose : Stops (newline level ++ '\x7d' :: rest) := stops_newline _ _
    rw [htext, lexed_sign _ rfl, lexed_newline, lexed_quote, lexed_sign _ rfl, lexed_blank,
      lexed_print d _ _ (stops_printMembers _ _ hclose), lexed_printMembers ms _ _ hclose,
      lexed_newline, lexed_sign _ rfl]
    simp [tokens]

theorem lexed_printItems (ds : List Data) (level : Nat) (ts : List Token) {rest : List Char}
    (hrest : Stops rest) : lexed (ts, .between) (printItems level ds ++ rest) =
      lexed ((itemTokens ds).reverse ++ ts, .between) rest := by
  match ds with
  | [] => rfl
  | d :: ds =>
    have htext : printItems level (d :: ds) ++ rest =
        ',' :: (newline level ++ (print level d ++ (printItems level ds ++ rest))) := by
      simp [printItems]
    rw [htext, lexed_sign _ rfl, lexed_newline, lexed_print d _ _ (stops_printItems _ _ hrest),
      lexed_printItems ds _ _ hrest]
    simp [itemTokens]

theorem lexed_printMembers (ms : List (String × Data)) (level : Nat) (ts : List Token)
    {rest : List Char} (hrest : Stops rest) :
    lexed (ts, .between) (printMembers level ms ++ rest) =
      lexed ((memberTokens ms).reverse ++ ts, .between) rest := by
  match ms with
  | [] => rfl
  | (k, d) :: ms =>
    have htext : printMembers level ((k, d) :: ms) ++ rest = ',' :: (newline level ++ (quote k ++
        (':' :: ' ' :: (print level d ++ (printMembers level ms ++ rest))))) := by
      simp [printMembers]
    rw [htext, lexed_sign _ rfl, lexed_newline, lexed_quote, lexed_sign _ rfl, lexed_blank,
      lexed_print d _ _ (stops_printMembers _ _ hrest), lexed_printMembers ms _ _ hrest]
    simp [memberTokens]

end

end Lexer

theorem tokens?_eq (cs : List Char) :
    tokens? cs = (Lexer.lexed ([], .between) cs).map fun l => l.1.reverse := by
  unfold tokens? Lexer.lexed
  cases cs.foldlM Lexer.step ([], .between) with
  | none => rfl
  | some l => cases hclose : l.close <;> simp [hclose]

/-- **The printed text of a value is cut into its tokens.** -/
theorem tokens?_print (d : Data) : tokens? (print 0 d) = some (tokens d) := by
  have hprint : Lexer.lexed ([], .between) (print 0 d ++ []) =
      Lexer.lexed ((tokens d).reverse ++ [], .between) [] :=
    Lexer.lexed_print d 0 [] Lexer.stops_nil
  rw [List.append_nil, List.append_nil] at hprint
  have hend : Lexer.lexed ((tokens d).reverse, .between) [] =
      some ((tokens d).reverse, .between) := rfl
  rw [tokens?_eq, hprint, hend, Option.map_some, List.reverse_reverse]

end MappingMetadata.Json
