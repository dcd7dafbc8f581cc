/-
JoosStatics.Proofs.Json.ReadBack — the reader of JSON text undoes the writer.

`Json.ofText?_compact`: the one-line text of a value is read as that value.
Two things are asked of it (`Fits`): its numbers are integers of 64 bits, and
its arrays and objects are nested no deeper than the reader goes.

## How the proof goes

Every `read…` function takes the text of its value off the front of a longer
text. What comes behind matters for numbers alone: a digit, a point or an
exponent mark would go on with them. In a written text a value is followed by
a comma, a closing bracket or brace, or nothing (`IsClosed`), so each lemma is
stated for every rest of this kind.

The readers count down a bound. A value never needs more of it than its text
has characters; items and members need one more, for the look behind the last
of them.
-/
import JoosStatics.Json.Reader
import JoosStatics.Json.Writer
import Mathlib.Data.List.TakeDrop

namespace JoosStatics.Json

/-! ## §1 Values that can be written -/

/-- A value that the reader takes: its numbers are integers of 64 bits, and at most `depth`
arrays and objects stand inside each other. -/
inductive Fits : (depth : Nat) → Json → Prop where
  | null {depth : Nat} : Fits depth .null
  | bool {depth : Nat} (value : Bool) : Fits depth (.bool value)
  | int {depth : Nat} {value : Int} (hmin : Int64.minValue.toInt ≤ value)
      (hmax : value < UInt64.size) : Fits depth (.int value)
  | str {depth : Nat} (text : String) : Fits depth (.str text)
  | arr {depth : Nat} {items : List Json} (h : ∀ item ∈ items, Fits depth item) :
      Fits (depth + 1) (.arr items)
  | obj {depth : Nat} {members : List (String × Json)}
      (h : ∀ member ∈ members, Fits depth member.2) : Fits (depth + 1) (.obj members)

/-- What may stand behind a value in a written text. -/
def IsClosed (rest : List Char) : Prop := ∀ c ∈ rest.head?, c = ',' ∨ c = ']' ∨ c = '\x7d'

@[simp] theorem isClosed_nil : IsClosed [] := by simp [IsClosed]

@[simp] theorem isClosed_comma (rest : List Char) : IsClosed (',' :: rest) := by simp [IsClosed]

@[simp] theorem isClosed_bracket (rest : List Char) : IsClosed (']' :: rest) := by
  simp [IsClosed]

@[simp] theorem isClosed_brace (rest : List Char) : IsClosed ('\x7d' :: rest) := by
  simp [IsClosed]

theorem skipSpace_cons {c : Char} (h : isSpace c = false) (rest : List Char) :
    skipSpace (c :: rest) = c :: rest := by
  simp [skipSpace, h]

/-! ## §2 Strings -/

theorem hexDigit?_hexDigit : ∀ n < 16, Text.hexDigit? (hexDigit n) = some n := by decide

/-- The three ways in which a character is written. -/
theorem escapeChar_cases (c : Char) :
    (∃ letter, escapeChar c = ['\\', letter] ∧ escaped? letter = some c) ∨
    (c.toNat < 0x20 ∧
      escapeChar c = ['\\', 'u', '0', '0', hexDigit (c.toNat / 16), hexDigit (c.toNat % 16)]) ∨
    (c ≠ '"' ∧ c ≠ '\\' ∧ 0x20 ≤ c.toNat ∧ escapeChar c = [c]) := by
  by_cases hletter : c ∈ ['"', '\\', '\n', '\r', '\t', '\x08', '\x0c']
  · simp only [List.mem_cons, List.not_mem_nil, or_false] at hletter
    rcases hletter with rfl | rfl | rfl | rfl | rfl | rfl | rfl <;> exact .inl ⟨_, rfl, rfl⟩
  · simp only [List.mem_cons, List.not_mem_nil, or_false, not_or] at hletter
    by_cases hcontrol : c.toNat < 0x20
    · exact .inr (.inl ⟨hcontrol, by simp [escapeChar, hletter, hcontrol]⟩)
    · exact .inr (.inr ⟨hletter.1, hletter.2.1, by omega, by simp [escapeChar, hletter, hcontrol]⟩)

/-- A character is read back from the way it is written, escaped or not. -/
theorem readString_escapeChar (fuel : Nat) (done : List Char) (c : Char) (rest : List Char) :
    readString (fuel + 1) done (escapeChar c ++ rest) = readString fuel (c :: done) rest := by
  rcases escapeChar_cases c with
    ⟨letter, hwritten, hletter⟩ | ⟨hcontrol, hwritten⟩ | ⟨hquote, hbackslash, hprinted, hwritten⟩
  · have hunicode : letter ≠ 'u' := by
      rintro rfl
      exact absurd hletter (by simp [escaped?])
    rw [hwritten, List.cons_append, List.singleton_append, readString, hletter]
    · rfl
    · exact hunicode
  · have hhigh := hexDigit?_hexDigit (c.toNat / 16) (by omega)
    have hlow := hexDigit?_hexDigit (c.toNat % 16) (by omega)
    have hzero : Text.hexDigit? '0' = some 0 := by decide
    have hcode : c.toNat / 16 * 16 + c.toNat % 16 = c.toNat := by omega
    have hread : readUnicode ('0' :: '0' :: hexDigit (c.toNat / 16) ::
        hexDigit (c.toNat % 16) :: rest) = some (c, rest) := by
      have hsmall : ¬ (0xDC00 ≤ c.toNat ∧ c.toNat ≤ 0xDFFF) := by omega
      have hsmall' : ¬ (0xD800 ≤ c.toNat ∧ c.toNat ≤ 0xDBFF) := by omega
      simp [readUnicode, readHex4, hzero, hhigh, hlow, hcode, hsmall, hsmall']
    simp [hwritten, readString, hread]
  · have hplain : (c == '\\' || decide (c.toNat < 0x20)) = false := by
      simp [hbackslash, hprinted]
    rw [hwritten, List.singleton_append, readString, hplain]
    · rfl
    · exact hquote
    · exact fun _ hc => absurd hc hbackslash
    · exact fun _ _ hc => absurd hc hbackslash

/-- The characters of a string are read up to its closing quote. -/
theorem readString_flatMap {fuel : Nat} (done cs rest : List Char) (hfuel : cs.length < fuel) :
    readString fuel done (cs.flatMap escapeChar ++ '"' :: rest) =
      some (String.ofList (done.reverse ++ cs), rest) := by
  induction cs generalizing fuel done with
  | nil =>
    obtain ⟨fuel, rfl⟩ : ∃ n, fuel = n + 1 := ⟨fuel - 1, by omega⟩
    simp [readString]
  | cons c cs ih =>
    simp only [List.length_cons] at hfuel
    obtain ⟨fuel, rfl⟩ : ∃ n, fuel = n + 1 := ⟨fuel - 1, by omega⟩
    rw [List.flatMap_cons, List.append_assoc, readString_escapeChar, ih (c :: done) (by omega)]
    simp

theorem length_escapeChar_pos (c : Char) : 1 ≤ (escapeChar c).length := by
  rcases escapeChar_cases c with ⟨_, h, _⟩ | ⟨_, h⟩ | ⟨_, _, _, h⟩ <;> simp [h]

/-- Escaping never makes a text shorter. -/
theorem length_le_flatMap_escapeChar (cs : List Char) :
    cs.length ≤ (cs.flatMap escapeChar).length := by
  induction cs with
  | nil => simp
  | cons c cs ih =>
    have hone := length_escapeChar_pos c
    simp only [List.flatMap_cons, List.length_append, List.length_cons]
    omega

theorem toList_quote (text : String) :
    (quote text).toList = '"' :: (text.toList.flatMap escapeChar ++ ['"']) := by
  simp [quote]

/-- A string is read back behind its opening quote. -/
theorem readString_of_quote (fuel : Nat) (text : String) (rest : List Char)
    (hfuel : (quote text).toList.length ≤ fuel + 1) :
    readString fuel [] (text.toList.flatMap escapeChar ++ '"' :: rest) = some (text, rest) := by
  have hlength := length_le_flatMap_escapeChar text.toList
  simp only [toList_quote, List.length_cons, List.length_append, List.length_nil] at hfuel
  rw [readString_flatMap [] text.toList rest (by omega)]
  simp

/-! ## §3 Numbers -/

theorem digitsValue_toDigits (n : Nat) : Text.digitsValue (Nat.toDigits 10 n) = n := by
  have hvalue := Nat.ofDigitChars_toDigits (b := 10) (n := n) (by omega) (by omega)
  rw [Nat.ofDigitChars_eq_foldl] at hvalue
  simpa [Text.digitsValue, Nat.mul_comm] using hvalue

/-- No number but zero begins with a zero. -/
theorem head?_toDigits_ne_zero {n : Nat} (h : 0 < n) : (Nat.toDigits 10 n).head? ≠ some '0' := by
  induction n using Nat.strongRecOn with
  | ind n ih =>
    by_cases hsmall : n < 10
    · have hdigit : ∀ d < 10, 0 < d → [Nat.digitChar d].head? ≠ some '0' := by decide
      rw [Nat.toDigits_of_lt_base hsmall]
      exact hdigit n hsmall h
    · rw [Nat.toDigits_of_base_le (by omega) (by omega), List.head?_append]
      have hrest := ih (n / 10) (by omega) (by omega)
      cases hdigits : Nat.toDigits 10 (n / 10) with
      | nil => exact absurd hdigits Nat.toDigits_ne_nil
      | cons d ds => simpa [hdigits] using hrest

/-- All digits of a number are read, and nothing behind them. -/
theorem readDigits_toDigits (n : Nat) {rest : List Char} (h : IsClosed rest) :
    readDigits (Nat.toDigits 10 n ++ rest) = (Nat.toDigits 10 n, rest) := by
  have hdigits : ∀ c ∈ Nat.toDigits 10 n, c.isDigit = true :=
    fun c hc => Nat.isDigit_of_mem_toDigits (by omega) (by omega) hc
  have hrest : rest.takeWhile Char.isDigit = [] ∧ rest.dropWhile Char.isDigit = rest := by
    cases rest with
    | nil => simp
    | cons c rest =>
      have hc : c.isDigit = false := by
        rcases h c rfl with rfl | rfl | rfl <;> decide
      simp [hc]
  rw [readDigits, List.span_eq_takeWhile_dropWhile, List.takeWhile_append_of_pos hdigits,
    List.dropWhile_append_of_pos hdigits, hrest.1, hrest.2, List.append_nil]

theorem readFraction_of_closed {rest : List Char} (h : IsClosed rest) :
    readFraction rest = some (none, rest) := by
  cases rest with
  | nil => rfl
  | cons c rest => rcases h c rfl with rfl | rfl | rfl <;> rfl

theorem readExponent_of_closed {rest : List Char} (h : IsClosed rest) :
    readExponent rest = some (none, rest) := by
  cases rest with
  | nil => rfl
  | cons c rest => rcases h c rfl with rfl | rfl | rfl <;> rfl

/-- The digits of a number, with or without a sign, are a whole number in the written form. -/
theorem readNumberText_toDigits (negative : Bool) (n : Nat) {rest : List Char}
    (h : IsClosed rest) :
    readNumberText ((if negative then ['-'] else []) ++ (Nat.toDigits 10 n ++ rest)) =
      some ({ negative, whole := Nat.toDigits 10 n, isInteger := true }, rest) := by
  have hread := readDigits_toDigits n h
  cases hdigits : Nat.toDigits 10 n with
  | nil => exact absurd hdigits Nat.toDigits_ne_nil
  | cons d ds =>
    have hsign : d ≠ '-' := by
      rintro rfl
      have hdigit : Char.isDigit '-' = true :=
        Nat.isDigit_of_mem_toDigits (by omega) (by omega) (hdigits ▸ List.mem_cons_self)
      exact absurd hdigit (by decide)
    have hlead : ∀ e es, d :: ds ≠ '0' :: e :: es := by
      intro e es heq
      have hzero : n = 0 := by
        by_contra hn
        exact head?_toDigits_ne_zero (Nat.pos_of_ne_zero hn) (by rw [hdigits, heq]; rfl)
      simp [hzero, heq] at hdigits
    rw [hdigits, List.cons_append] at hread
    cases negative <;>
      simp [readNumberText, hread, hsign, readFraction_of_closed h, readExponent_of_closed h]

/-- The characters of an integer. -/
theorem toList_toString_int (n : Int) :
    (toString n).toList = (if n < 0 then ['-'] else []) ++ Nat.toDigits 10 n.natAbs := by
  cases n with
  | ofNat n => simp [Int.toString_eq_repr, Int.repr]
  | negSucc n => simp [Int.toString_eq_repr, Int.repr]

/-- What a number begins with is no white space. -/
theorem isSpace_eq_false {c : Char} (h : c = '-' ∨ c.isDigit = true) : isSpace c = false := by
  by_contra hspace
  simp only [isSpace, Bool.not_eq_false, Bool.or_eq_true, beq_iff_eq] at hspace
  rcases hspace with ((rfl | rfl) | rfl) | rfl <;> revert h <;> decide

/-- An integer begins with a sign or a digit. -/
theorem exists_head_int (n : Int) :
    ∃ c cs, (toString n).toList = c :: cs ∧ (c = '-' ∨ c.isDigit = true) := by
  rw [toList_toString_int]
  by_cases hneg : n < 0
  · simp [hneg]
  · cases hdigits : Nat.toDigits 10 n.natAbs with
    | nil => exact absurd hdigits Nat.toDigits_ne_nil
    | cons d ds =>
      have hd : d.isDigit = true :=
        Nat.isDigit_of_mem_toDigits (by omega) (by omega) (hdigits ▸ List.mem_cons_self)
      simp [hneg, hd]

/-- Digits without a sign denote a number below `UInt64.size`. -/
theorem value?_positive {m : Nat} (h : m < UInt64.size) (before after : List Char) :
    NumberText.value? { negative := false, whole := Nat.toDigits 10 m, isInteger := true }
      before after = some (.int (Int.ofNat m)) := by
  simp only [NumberText.value?, digitsValue_toDigits]
  rw [if_pos (by simp only [Bool.not_false, Bool.true_and, decide_eq_true_eq]; exact h)]

/-- Digits behind a sign denote a number down to the least of 64 bits. -/
theorem value?_negative {m : Nat} (hpos : 0 < m) (hmin : Int64.minValue.toInt ≤ -Int.ofNat m)
    (before after : List Char) :
    NumberText.value? { negative := true, whole := Nat.toDigits 10 m, isInteger := true }
      before after = some (.int (-Int.ofNat m)) := by
  simp only [NumberText.value?, digitsValue_toDigits]
  rw [if_neg (by simp), if_pos]
  simp only [Bool.true_and, Bool.and_eq_true, decide_eq_true_eq]
  exact ⟨hpos, hmin⟩

/-- An integer of 64 bits is read back. -/
theorem readNumber_int {n : Int} (hmin : Int64.minValue.toInt ≤ n) (hmax : n < UInt64.size)
    {rest : List Char} (h : IsClosed rest) :
    readNumber ((toString n).toList ++ rest) = some (.int n, rest) := by
  have htext := readNumberText_toDigits (decide (n < 0)) n.natAbs h
  simp only [decide_eq_true_eq] at htext
  unfold readNumber
  rw [toList_toString_int, List.append_assoc, htext]
  by_cases hneg : n < 0
  · have hvalue : n = -Int.ofNat n.natAbs := by simp only [Int.ofNat_eq_natCast]; omega
    have hread := value?_negative (m := n.natAbs) (by omega) (hvalue ▸ hmin)
    simp only [hneg, decide_true, Option.bind_eq_bind, Option.bind_some, hread, ← hvalue]
    rfl
  · have hvalue : n = Int.ofNat n.natAbs := by simp only [Int.ofNat_eq_natCast]; omega
    have hread := value?_positive (m := n.natAbs) (by omega)
    simp only [hneg, decide_false, Option.bind_eq_bind, Option.bind_some, hread, ← hvalue]
    rfl

/-! ## §4 Values -/

theorem toList_compact_arr (items : List Json) :
    (compact (.arr items)).toList = '[' :: ((compactItems items).toList ++ [']']) := by
  simp [compact]

theorem toList_compact_obj (members : List (String × Json)) :
    (compact (.obj members)).toList = '\x7b' :: ((compactMembers members).toList ++ ['\x7d']) := by
  simp [compact]

/-- A value begins with a character that is neither white space nor a closing bracket. -/
theorem exists_head_compact {depth : Nat} {v : Json} (h : Fits depth v) :
    ∃ c cs, (compact v).toList = c :: cs ∧ isSpace c = false ∧ c ≠ ']' := by
  cases h with
  | null => exact ⟨'n', _, rfl, by decide, by decide⟩
  | bool value => cases value <;> exact ⟨_, _, rfl, by decide, by decide⟩
  | @int _ n _ _ =>
    obtain ⟨c, cs, htext, hhead⟩ := exists_head_int n
    refine ⟨c, cs, by rw [compact, htext], isSpace_eq_false hhead, ?_⟩
    rintro rfl
    exact absurd hhead (by decide)
  | str text => exact ⟨'"', _, by rw [compact, toList_quote], by decide, by decide⟩
  | arr _ => exact ⟨'[', _, toList_compact_arr _, by decide, by decide⟩
  | obj _ => exact ⟨'\x7b', _, toList_compact_obj _, by decide, by decide⟩

theorem exists_head_compactItems {depth : Nat} {items : List Json} (hne : items ≠ [])
    (h : ∀ item ∈ items, Fits depth item) :
    ∃ c cs, (compactItems items).toList = c :: cs ∧ isSpace c = false ∧ c ≠ ']' := by
  cases items with
  | nil => exact absurd rfl hne
  | cons item items =>
    obtain ⟨c, cs, htext, hhead⟩ := exists_head_compact (h item List.mem_cons_self)
    cases items with
    | nil => exact ⟨c, cs, by rw [compactItems, htext], hhead⟩
    | cons next items =>
      refine ⟨c, cs ++ ',' :: (compactItems (next :: items)).toList, ?_, hhead⟩
      simp [compactItems, htext]

theorem exists_head_compactMembers {members : List (String × Json)} (hne : members ≠ []) :
    ∃ cs, (compactMembers members).toList = '"' :: cs := by
  have hhead : (compactMembers members).toList.head? = some '"' := by
    cases members with
    | nil => exact absurd rfl hne
    | cons member members =>
      obtain ⟨key, value⟩ := member
      cases members <;> simp [compactMembers, compactMember, toList_quote]
  exact List.head?_eq_some_iff.mp hhead

/-- A value is taken off the front of every text that continues it. -/
def IsReadBack (depth : Nat) (v : Json) : Prop :=
  ∀ fuel rest, (compact v).toList.length ≤ fuel → IsClosed rest →
    readValue fuel depth ((compact v).toList ++ rest) = some (v, rest)

/-- Items are read back up to the closing bracket. -/
theorem readItems_compactItems {depth : Nat} {items : List Json} (hne : items ≠ [])
    (h : ∀ item ∈ items, IsReadBack depth item) (fuel : Nat) (rest : List Char)
    (hfuel : (compactItems items).toList.length < fuel) :
    readItems fuel depth ((compactItems items).toList ++ ']' :: rest) = some (items, rest) := by
  induction items generalizing fuel with
  | nil => exact absurd rfl hne
  | cons item items ih =>
    obtain ⟨fuel, rfl⟩ : ∃ n, fuel = n + 1 := ⟨fuel - 1, by omega⟩
    have hitem := h item List.mem_cons_self fuel
    cases items with
    | nil =>
      simp only [compactItems] at hfuel ⊢
      simp [readItems, hitem (']' :: rest) (by omega) (isClosed_bracket rest),
        skipSpace_cons (c := ']') (by decide)]
    | cons next items =>
      have htext : (compactItems (item :: next :: items)).toList ++ ']' :: rest =
          (compact item).toList ++
            ',' :: ((compactItems (next :: items)).toList ++ ']' :: rest) := by
        simp [compactItems]
      have hlength : (compactItems (item :: next :: items)).toList.length =
          (compact item).toList.length + 1 + (compactItems (next :: items)).toList.length := by
        simp [compactItems, Nat.add_assoc, Nat.add_comm 1]
      have hrest := ih (by simp) (fun other hother => h other (List.mem_cons_of_mem _ hother)) fuel
        (by omega)
      rw [htext, readItems, hitem _ (by omega) (isClosed_comma _)]
      simp [skipSpace_cons (c := ',') (by decide), hrest]

/-- Members are read back up to the closing brace. -/
theorem readMembers_compactMembers {depth : Nat} {members : List (String × Json)}
    (hne : members ≠ []) (h : ∀ member ∈ members, IsReadBack depth member.2) (fuel : Nat)
    (rest : List Char) (hfuel : (compactMembers members).toList.length < fuel) :
    readMembers fuel depth ((compactMembers members).toList ++ '\x7d' :: rest) =
      some (members, rest) := by
  induction members generalizing fuel with
  | nil => exact absurd rfl hne
  | cons member members ih =>
    obtain ⟨key, value⟩ := member
    obtain ⟨fuel, rfl⟩ : ∃ n, fuel = n + 1 := ⟨fuel - 1, by omega⟩
    have hvalue : IsReadBack depth value := h (key, value) List.mem_cons_self
    have htext : (compactMember (key, value)).toList =
        (quote key).toList ++ ':' :: (compact value).toList := by
      simp [compactMember]
    have hquote (tail : List Char) : (quote key).toList ++ tail =
        '"' :: (key.toList.flatMap escapeChar ++ '"' :: tail) := by
      simp [toList_quote]
    cases members with
    | nil =>
      simp only [compactMembers, htext, List.length_append, List.length_cons] at hfuel ⊢
      have hkey := readString_of_quote fuel key
        (':' :: ((compact value).toList ++ '\x7d' :: rest)) (by omega)
      rw [List.append_assoc, List.cons_append, hquote]
      simp [readMembers, hkey, hvalue fuel ('\x7d' :: rest) (by omega) (isClosed_brace rest),
        skipSpace_cons (c := '"') (by decide), skipSpace_cons (c := ':') (by decide),
        skipSpace_cons (c := '\x7d') (by decide)]
    | cons next members =>
      have hall : (compactMembers ((key, value) :: next :: members)).toList =
          (compactMember (key, value)).toList ++
            ',' :: (compactMembers (next :: members)).toList := by
        simp [compactMembers]
      simp only [hall, htext, List.length_append, List.length_cons] at hfuel
      have hrest := ih (by simp) (fun other hother => h other (List.mem_cons_of_mem _ hother)) fuel
        (by omega)
      have hkey := readString_of_quote fuel key (':' :: ((compact value).toList ++
        ',' :: ((compactMembers (next :: members)).toList ++ '\x7d' :: rest))) (by omega)
      rw [hall, htext]
      simp only [List.append_assoc, List.cons_append, hquote]
      simp [readMembers, hkey, hvalue fuel (',' :: _) (by omega) (isClosed_comma _), hrest,
        skipSpace_cons (c := '"') (by decide), skipSpace_cons (c := ':') (by decide),
        skipSpace_cons (c := ',') (by decide)]

/-- A value whose first character calls for a number is read as one. -/
theorem readValue_number {fuel depth : Nat} {c : Char} {cs : List Char}
    (h : c = '-' ∨ c.isDigit = true) :
    readValue (fuel + 1) depth (c :: cs) = readNumber (c :: cs) := by
  rw [readValue, skipSpace_cons (isSpace_eq_false h)]
  split
  all_goals first
    | (rename_i heq; obtain ⟨rfl, -⟩ := List.cons.inj heq; exact absurd h (by decide))
    | rfl

/-- Every value that fits is read back. -/
theorem Fits.isReadBack {depth : Nat} {v : Json} (h : Fits depth v) : IsReadBack depth v := by
  induction h with
  | null =>
    intro fuel rest hfuel _
    obtain ⟨fuel, rfl⟩ : ∃ n, fuel = n + 1 := ⟨fuel - 1, by simp [compact] at hfuel; omega⟩
    rfl
  | bool value =>
    intro fuel rest hfuel _
    obtain ⟨fuel, rfl⟩ : ∃ n, fuel = n + 1 := by
      refine ⟨fuel - 1, ?_⟩
      cases value <;> simp [compact] at hfuel <;> omega
    cases value <;> rfl
  | @int depth n hmin hmax =>
    intro fuel rest hfuel hrest
    obtain ⟨c, cs, htext, hhead⟩ := exists_head_int n
    rw [compact, htext, List.length_cons] at hfuel
    obtain ⟨fuel, rfl⟩ : ∃ n, fuel = n + 1 := ⟨fuel - 1, by omega⟩
    have hread := readNumber_int hmin hmax hrest
    rw [htext, List.cons_append] at hread
    rw [compact, htext, List.cons_append, readValue_number hhead, hread]
  | str text =>
    intro fuel rest hfuel _
    rw [compact] at hfuel ⊢
    obtain ⟨fuel, rfl⟩ : ∃ n, fuel = n + 1 := ⟨fuel - 1, by simp [toList_quote] at hfuel; omega⟩
    have hread := readString_of_quote fuel text rest hfuel
    rw [toList_quote, List.cons_append, List.append_assoc, readValue,
      skipSpace_cons (by decide)]
    simp [hread]
  | @arr depth items h ih =>
    intro fuel rest hfuel _
    rw [toList_compact_arr, List.length_cons, List.length_append] at hfuel
    obtain ⟨fuel, rfl⟩ : ∃ n, fuel = n + 1 := ⟨fuel - 1, by omega⟩
    rw [toList_compact_arr, List.cons_append, List.append_assoc, List.singleton_append]
    by_cases hne : items = []
    · subst hne
      rfl
    · have hread := readItems_compactItems hne ih fuel rest (by simp at hfuel; omega)
      obtain ⟨c, cs, htext, hspace, hopen⟩ := exists_head_compactItems hne h
      rw [htext, List.cons_append] at hread ⊢
      rw [readValue, skipSpace_cons (by decide)]
      simp [skipSpace_cons hspace, hopen, hread]
  | @obj depth members h ih =>
    intro fuel rest hfuel _
    rw [toList_compact_obj, List.length_cons, List.length_append] at hfuel
    obtain ⟨fuel, rfl⟩ : ∃ n, fuel = n + 1 := ⟨fuel - 1, by omega⟩
    rw [toList_compact_obj, List.cons_append, List.append_assoc, List.singleton_append]
    by_cases hne : members = []
    · subst hne
      rfl
    · have hread := readMembers_compactMembers hne ih fuel rest (by simp at hfuel; omega)
      obtain ⟨cs, htext⟩ := exists_head_compactMembers hne
      rw [htext, List.cons_append] at hread ⊢
      rw [readValue, skipSpace_cons (by decide)]
      simp [skipSpace_cons (c := '"') (by decide), hread]

/-- The text of a value on one line denotes the value. -/
theorem ofText?_compact {v : Json} (h : Fits maxDepth v) : ofText? (compact v) = some v := by
  have hread := h.isReadBack ((compact v).toList.length + 2) [] (by omega) isClosed_nil
  rw [List.append_nil] at hread
  simp [ofText?, hread, skipSpace]

end JoosStatics.Json
