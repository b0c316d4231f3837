import ClusterAccess.Json.Record
import ClusterAccess.Proofs.Json.Reader

/-!
# Written values, read back

What is written for a value is read as that value, whatever comes after it, and is passed over as
far as it goes.  A number alone has no end of its own: what comes after it must not go on with it
(`Stops`).

An object is read member by member, each into what those before it have built.  `Folds` says what
comes of members whose values are read back, and `object_write` that reading the object comes to it.
-/

namespace ClusterAccess.Json

open Text (Piece)

/-! ## Digits -/

theorem digit?_digitChar : ∀ d : Digit, Reader.digit? (Nat.digitChar d.val) = some d := by decide

/-- The digits of a number. -/
def digitsOf (n : Nat) : List Digit := (Nat.toDigits 10 n).filterMap Reader.digit?

theorem digitsOf_of_lt {n : Nat} (h : n < 10) : digitsOf n = [⟨n, h⟩] := by
  rw [digitsOf, Nat.toDigits_of_lt_base h]
  exact List.filterMap_cons_some (digit?_digitChar ⟨n, h⟩)

theorem digitsOf_of_le {n : Nat} (h : 10 ≤ n) :
    digitsOf n = digitsOf (n / 10) ++ [⟨n % 10, Nat.mod_lt n (by decide)⟩] := by
  rw [digitsOf, Nat.toDigits_of_base_le (by decide) h, List.filterMap_append]
  exact congrArg (digitsOf (n / 10) ++ ·)
    (List.filterMap_cons_some (digit?_digitChar ⟨n % 10, Nat.mod_lt n (by decide)⟩))

theorem map_digitsOf (n : Nat) :
    (digitsOf n).map Reader.digitPiece = (Nat.toDigits 10 n).map .char := by
  induction n using Nat.strongRecOn with
  | ind n ih =>
    by_cases h : n < 10
    · rw [digitsOf_of_lt h, Nat.toDigits_of_lt_base h]
      rfl
    · have hle : 10 ≤ n := Nat.le_of_not_lt h
      rw [digitsOf_of_le hle, Nat.toDigits_of_base_le (by decide) hle, List.map_append,
        ih (n / 10) (by omega), List.map_append]
      rfl

theorem digitsOf_ne_nil (n : Nat) : digitsOf n ≠ [] := by
  by_cases h : n < 10
  · rw [digitsOf_of_lt h]
    exact List.cons_ne_nil _ _
  · rw [digitsOf_of_le (Nat.le_of_not_lt h)]
    exact List.append_ne_nil_of_right_ne_nil _ (List.cons_ne_nil _ _)

/-- No zero stands before other digits. -/
theorem head?_digitsOf {n : Nat} (h : n ≠ 0) : (digitsOf n).head? ≠ some 0 := by
  induction n using Nat.strongRecOn with
  | ind n ih =>
    by_cases hlt : n < 10
    · rw [digitsOf_of_lt hlt]
      intro hzero
      exact h (congrArg Fin.val (Option.some.inj hzero))
    · have hle : 10 ≤ n := Nat.le_of_not_lt hlt
      have hfront : (digitsOf (n / 10)).head? ≠ some 0 := ih (n / 10) (by omega) (by omega)
      rw [digitsOf_of_le hle]
      cases hds : digitsOf (n / 10) with
      | nil => exact absurd hds (digitsOf_ne_nil _)
      | cons d ds =>
        rw [hds] at hfront
        exact hfront

namespace Literal

theorem takeBelow_append {limit taken m : Nat} {ds : List Digit}
    (h : takeBelow limit taken ds = (m, [])) (rest : List Digit) :
    takeBelow limit taken (ds ++ rest) = takeBelow limit m rest := by
  induction ds generalizing taken with
  | nil =>
    cases h
    rfl
  | cons d ds ih =>
    rw [takeBelow] at h
    split at h
    · rename_i hlt
      rw [List.cons_append, takeBelow, if_pos hlt]
      exact ih h
    · cases h

theorem takeBelow_digitsOf {limit n : Nat} (h : n < limit) :
    takeBelow limit 0 (digitsOf n) = (n, []) := by
  induction n using Nat.strongRecOn with
  | ind n ih =>
    by_cases hlt : n < 10
    · rw [digitsOf_of_lt hlt, takeBelow, if_pos (by simpa using h), takeBelow, Nat.zero_mul,
        Nat.zero_add]
    · have hle : 10 ≤ n := Nat.le_of_not_lt hlt
      have hn : n / 10 * 10 + n % 10 = n := by omega
      rw [digitsOf_of_le hle, takeBelow_append (ih (n / 10) (by omega) (by omega)), takeBelow,
        if_pos (by rwa [hn]), takeBelow, hn]

end Literal

theorem leading_digitsOf {n : Nat} (h : (digitsOf n).head? = some 0) : digitsOf n = [0] := by
  by_cases hn : n = 0
  · rw [hn]
    exact digitsOf_of_lt (by decide)
  · exact absurd h (head?_digitsOf hn)

/-! ## Integers -/

/-- An integer as it is written: digits, the first of which is a zero only if it stands alone,
perhaps behind a minus. -/
structure Numeral where
  negative : Bool
  digits : List Digit
  ne_nil : digits ≠ []
  leading : digits.head? = some 0 → digits = [0]

namespace Numeral

def text (i : Numeral) : Source :=
  (if i.negative then [.char '-'] else []) ++ i.digits.map Reader.digitPiece

def literal (i : Numeral) : Literal := ⟨i.negative, i.digits, [], none⟩

def value (i : Numeral) : Int :=
  if i.negative then -(Literal.ofDigits i.digits : Int) else Literal.ofDigits i.digits

/-- A natural, without a minus. -/
def ofNat (n : Nat) : Numeral where
  negative := false
  digits := digitsOf n
  ne_nil := digitsOf_ne_nil n
  leading := leading_digitsOf

/-- The same digits behind a minus. -/
def minus (i : Numeral) : Numeral := { i with negative := true }

end Numeral

/-! ## Numbers -/

/-- A source that does not go on with a number before it. -/
def Stops : Source → Prop
  | .char c :: _ => Reader.digit? c = none ∧ c ≠ '.' ∧ c ≠ 'e' ∧ c ≠ 'E'
  | _ => True

namespace Reader

variable {ε : Type} {rest : Source}

/-- Digits are told from what comes after them, if that does not begin with one. -/
theorem spanDigits_map (ds : List Digit) (h : ∀ c t, rest = .char c :: t → digit? c = none) :
    spanDigits (ds.map digitPiece ++ rest) = (ds, rest) := by
  induction ds with
  | nil =>
    cases rest with
    | nil => rfl
    | cons piece rest =>
      cases piece with
      | stray byte => rfl
      | char c =>
        rw [List.map_nil, List.nil_append, spanDigits]
        simp only [h c rest rfl]
  | cons d ds ih =>
    rw [List.map_cons, List.cons_append, digitPiece, spanDigits]
    simp only [digit?_digitChar, ih]

theorem spanDigits_append (ds : List Digit) (stops : Stops rest) :
    spanDigits (ds.map digitPiece ++ rest) = (ds, rest) := by
  refine spanDigits_map ds ?_
  rintro c t rfl
  exact stops.1

theorem wholeDigits_numeral (i : Numeral) (stops : Stops rest) :
    wholeDigits (ε := ε) (i.digits.map digitPiece ++ rest) = .ok i.digits rest := by
  have hdigits : digits (ε := ε) (i.digits.map digitPiece ++ rest) = .ok i.digits rest := by
    rw [digits, spanDigits_append _ stops]
    cases hds : i.digits with
    | nil => exact absurd hds i.ne_nil
    | cons d ds => rfl
  rw [wholeDigits, bind_of_ok hdigits]
  cases hds : i.digits with
  | nil => rfl
  | cons d ds =>
    cases ds with
    | nil => rfl
    | cons e ds =>
      have hd : d ≠ 0 := by
        rintro rfl
        have hone := i.leading (by rw [hds]; rfl)
        rw [hds] at hone
        cases hone
      exact congrFun (if_neg hd) rest

theorem digitChar_ne_minus : ∀ d : Digit, ¬ decide (Nat.digitChar d.val = '-') = true := by decide

theorem accept_of_stops {p : Char → Bool} (h : ∀ c s, rest = .char c :: s → ¬ p c = true) :
    accept (ε := ε) p rest = .ok none rest := by
  cases rest with
  | nil => rfl
  | cons piece rest =>
    cases piece with
    | stray byte => rfl
    | char c => exact accept_of_neg (h c rest rfl)

theorem accept_minus (i : Numeral) (rest : Source) : ∃ minus, minus.isSome = i.negative ∧
    accept (ε := ε) (fun c => decide (c = '-')) (i.text ++ rest) =
      .ok minus (i.digits.map digitPiece ++ rest) := by
  unfold Numeral.text
  cases i.negative with
  | true => exact ⟨some '-', rfl, rfl⟩
  | false =>
    refine ⟨none, rfl, accept_of_stops fun c s hc => ?_⟩
    cases hds : i.digits with
    | nil => exact absurd hds i.ne_nil
    | cons d ds =>
      rw [hds] at hc
      obtain rfl : Nat.digitChar d.val = c := Piece.char.inj (List.cons.inj hc).1
      exact digitChar_ne_minus d

/-- An integer is read as the literal that it is. -/
theorem literal_numeral (i : Numeral) (stops : Stops rest) :
    literal (ε := ε) (i.text ++ rest) = .ok i.literal rest := by
  obtain ⟨minus, hsign, hminus⟩ := accept_minus (ε := ε) i rest
  have hpoint : accept (ε := ε) (fun c => decide (c = '.')) rest = .ok none rest := by
    refine accept_of_stops ?_
    rintro c s rfl
    simpa using stops.2.1
  have hexponent : accept (ε := ε) (fun c => decide (c = 'e') || decide (c = 'E')) rest =
      .ok none rest := by
    refine accept_of_stops ?_
    rintro c s rfl
    simpa using stops.2.2
  rw [literal, bind_of_ok hminus, bind_of_ok (wholeDigits_numeral i stops), bind_of_ok hpoint]
  simp only [Option.isSome_none, Bool.false_eq_true, if_false]
  rw [pure_bind, bind_of_ok hexponent, Numeral.literal, ← hsign]
  rfl

theorem literal_digitsOf (n : Nat) (stops : Stops rest) :
    literal (ε := ε) ((digitsOf n).map digitPiece ++ rest) =
      .ok ⟨false, digitsOf n, [], none⟩ rest := literal_numeral (.ofNat n) stops

end Reader

theorem Number.write_natural (n : UInt64) :
    (Number.natural n).write.map Piece.char = (digitsOf n.toNat).map Reader.digitPiece := by
  rw [map_digitsOf]
  exact congrArg (List.map Piece.char) Nat.toList_repr

namespace Reader

variable {ε : Type} {rest : Source}

theorem number_write (n : UInt64) (stops : Stops rest) :
    number (ε := ε) ((Number.natural n).write.map .char ++ rest) = .ok (.natural n) rest := by
  have hword : Literal.number? ⟨false, digitsOf n.toNat, [], none⟩ = some (.natural n) := by
    simp only [Literal.number?, Literal.word?, Literal.takeBelow_digitsOf n.toNat_lt,
      UInt64.ofNat_toNat]
  rw [Number.write_natural, number, bind_of_ok (literal_digitsOf n.toNat stops), hword]
  rfl

/-! ## Strings -/

/-- A character is written by its escape, by its number, or as it is. -/
theorem writeChar_cases (c : Char) :
    (∃ d, writeChar c = ['\\', d] ∧ escaped? d = some c) ∨
      (c.toNat < 0x20 ∧ writeChar c =
        ['\\', 'u', '0', '0', hexDigit (c.toNat / 16), hexDigit (c.toNat % 16)]) ∨
      (c ≠ '"' ∧ c ≠ '\\' ∧ ¬ c.toNat < 0x20 ∧ writeChar c = [c]) := by
  by_cases hquote : c = '"'
  · exact .inl ⟨'"', by rw [hquote]; rfl, by rw [hquote]; rfl⟩
  by_cases hslash : c = '\\'
  · exact .inl ⟨'\\', by rw [hslash]; rfl, by rw [hslash]; rfl⟩
  by_cases hline : c = '\n'
  · exact .inl ⟨'n', by rw [hline]; rfl, by rw [hline]; rfl⟩
  by_cases hreturn : c = '\r'
  · exact .inl ⟨'r', by rw [hreturn]; rfl, by rw [hreturn]; rfl⟩
  by_cases htab : c = '\t'
  · exact .inl ⟨'t', by rw [htab]; rfl, by rw [htab]; rfl⟩
  by_cases hback : c.toNat = 0x08
  · obtain rfl : c = '\x08' := Char.toNat_inj.mp hback
    exact .inl ⟨'b', rfl, rfl⟩
  by_cases hfeed : c.toNat = 0x0C
  · obtain rfl : c = '\x0c' := Char.toNat_inj.mp hfeed
    exact .inl ⟨'f', rfl, rfl⟩
  right
  unfold writeChar
  rw [if_neg hquote, if_neg hslash, if_neg hline, if_neg hreturn, if_neg htab, if_neg hback,
    if_neg hfeed]
  by_cases hcontrol : c.toNat < 0x20
  · exact .inl ⟨hcontrol, if_pos hcontrol⟩
  · exact .inr ⟨hquote, hslash, hcontrol, if_neg hcontrol⟩

theorem hexValue?_hexDigit : ∀ n < 16, hexValue? (hexDigit n) = some n := by decide

section Escapes

variable (strayed : Bool) (done : List Char)

theorem stringFrom_escape {c d : Char} (h : escaped? d = some c) :
    stringFrom (ε := ε) .plain strayed done (.char '\\' :: .char d :: rest) =
      stringFrom .plain strayed (c :: done) rest := by
  simp only [stringFrom, h]
  rfl

/-- The number of a control character. -/
theorem stringFrom_numeric {c : Char} (h : c.toNat < 0x20) :
    stringFrom (ε := ε) .plain strayed done
      (.char '\\' :: .char 'u' :: .char '0' :: .char '0' :: .char (hexDigit (c.toNat / 16)) ::
        .char (hexDigit (c.toNat % 16)) :: rest) =
      stringFrom .plain strayed (c :: done) rest := by
  have hescape : stringFrom (ε := ε) .plain strayed done
      (.char '\\' :: .char 'u' :: .char '0' :: .char '0' :: .char (hexDigit (c.toNat / 16)) ::
        .char (hexDigit (c.toNat % 16)) :: rest) =
      stringFrom (.numeric none 2 0) strayed done (.char (hexDigit (c.toNat / 16)) ::
        .char (hexDigit (c.toNat % 16)) :: rest) := rfl
  have hvalue : (0 * 16 + c.toNat / 16) * 16 + c.toNat % 16 = c.toNat := by omega
  have hlow : isLowHalf c.toNat = false := by
    rw [isLowHalf, decide_eq_false (by omega), Bool.false_and]
  have hhigh : isHighHalf c.toNat = false := by
    rw [isHighHalf, decide_eq_false (by omega), Bool.false_and]
  rw [hescape]
  simp only [stringFrom, hexValue?_hexDigit (c.toNat / 16) (by omega),
    hexValue?_hexDigit (c.toNat % 16) (by omega), Nat.reduceLT, Nat.reduceAdd, if_true, if_false,
    hvalue, hlow, hhigh, Bool.false_eq_true, Char.ofNat_toNat]

theorem stringFrom_plain {c : Char} (hquote : c ≠ '"') (hslash : c ≠ '\\')
    (hcontrol : ¬ c.toNat < 0x20) :
    stringFrom (ε := ε) .plain strayed done (.char c :: rest) =
      stringFrom .plain strayed (c :: done) rest := by
  simp only [stringFrom, if_neg hquote, if_neg hslash, if_neg hcontrol]

/-- A character as it is written is read as that character. -/
theorem stringFrom_writeChar (c : Char) :
    stringFrom (ε := ε) .plain strayed done ((writeChar c).map .char ++ rest) =
      stringFrom .plain strayed (c :: done) rest := by
  rcases writeChar_cases c with ⟨d, hwrite, hd⟩ | ⟨hcontrol, hwrite⟩ |
    ⟨hquote, hslash, hcontrol, hwrite⟩
  · rw [hwrite]
    exact stringFrom_escape strayed done hd
  · rw [hwrite]
    exact stringFrom_numeric strayed done hcontrol
  · rw [hwrite]
    exact stringFrom_plain strayed done hquote hslash hcontrol

end Escapes

theorem stringFrom_write (done chars : List Char) :
    stringFrom (ε := ε) .plain false done
      ((chars.flatMap writeChar).map .char ++ .char '"' :: rest) =
      .ok (String.ofList (done.reverse ++ chars)) rest := by
  induction chars generalizing done with
  | nil =>
    rw [List.append_nil]
    rfl
  | cons c chars ih =>
    rw [List.flatMap_cons, List.map_append, List.append_assoc, stringFrom_writeChar, ih,
      List.reverse_cons, List.append_assoc]
    rfl

theorem writeString_map (text : String) (rest : Source) :
    (writeString text).map .char ++ rest =
      .char '"' :: ((text.toList.flatMap writeChar).map .char ++ .char '"' :: rest) := by
  rw [writeString, List.map_cons, List.map_append, List.cons_append, List.append_assoc]
  rfl

/-- **A string that is written is read as its text.** -/
theorem string_write (text : String) :
    string (ε := ε) ((writeString text).map .char ++ rest) = .ok text rest := by
  rw [writeString_map, string, bind_of_ok (expect_char rfl), stringFrom_write]
  exact congrArg (EStateM.Result.ok · rest) String.ofList_toList

theorem skipStringFrom_writeChar (c : Char) :
    skipStringFrom (ε := ε) .plain ((writeChar c).map .char ++ rest) =
      skipStringFrom .plain rest := by
  rcases writeChar_cases c with ⟨d, hwrite, hd⟩ | ⟨hcontrol, hwrite⟩ |
    ⟨hquote, hslash, hcontrol, hwrite⟩
  · rw [hwrite]
    change skipStringFrom .escape (.char d :: rest) = _
    simp only [skipStringFrom, hd, Option.isSome_some, if_true]
  · rw [hwrite]
    change skipStringFrom (.numeric 1) (.char (hexDigit (c.toNat / 16)) ::
      .char (hexDigit (c.toNat % 16)) :: rest) = _
    simp only [skipStringFrom, hexValue?_hexDigit (c.toNat / 16) (by omega),
      hexValue?_hexDigit (c.toNat % 16) (by omega), Option.isNone_some, Bool.false_eq_true,
      if_false]
  · rw [hwrite]
    change skipStringFrom .plain (.char c :: rest) = _
    simp only [skipStringFrom, if_neg hquote, if_neg hslash, if_neg hcontrol]

theorem skipString_write (text : String) :
    skipString (ε := ε) ((writeString text).map .char ++ rest) = .ok () rest := by
  rw [writeString_map, skipString, bind_of_ok (expect_char rfl)]
  induction text.toList with
  | nil => rfl
  | cons c chars ih =>
    rw [List.flatMap_cons, List.map_append, List.append_assoc, skipStringFrom_writeChar]
    exact ih

end Reader

/-! ## Scalars -/

/-- A reader reads a text as a value, whatever comes after the text. -/
def Reads {ε α : Type} (x : Reader ε α) (text : List Char) (a : α) : Prop :=
  ∀ rest, Stops rest → x (text.map .char ++ rest) = .ok a rest

namespace Reader

variable {ε : Type}

/-- What begins with a digit is a number and nothing else. -/
theorem digitChar_ne : ∀ d : Digit, isSpace (Nat.digitChar d.val) = false ∧
    Nat.digitChar d.val ≠ '"' ∧ Nat.digitChar d.val ≠ '[' ∧ Nat.digitChar d.val ≠ '\x7b' ∧
    Nat.digitChar d.val ≠ 'n' ∧ Nat.digitChar d.val ≠ 't' ∧ Nat.digitChar d.val ≠ 'f' := by decide

theorem look_word (n : UInt64) (rest : Source) :
    ∃ d : Digit, look (ε := ε) ((Json.ofWord n).write.map .char ++ rest) =
      .ok (some (Nat.digitChar d.val)) ((Json.ofWord n).write.map .char ++ rest) := by
  rw [Json.ofWord, Json.write, Number.write_natural]
  cases hds : digitsOf n.toNat with
  | nil => exact absurd hds (digitsOf_ne_nil _)
  | cons d ds => exact ⟨d, look_char (digitChar_ne d).1⟩

theorem look_string (text : String) (rest : Source) :
    look (ε := ε) ((Json.string text).write.map .char ++ rest) =
      .ok (some '"') ((Json.string text).write.map .char ++ rest) := by
  rw [Json.write, writeString_map]
  rfl

section Scalar

variable (onArray onObject : Reader ε Json)

theorem reads_scalarOr_word (n : UInt64) :
    Reads (scalarOr onArray onObject) (Json.ofWord n).write (.ofWord n) := by
  intro rest stops
  obtain ⟨d, hlook⟩ := look_word (ε := ε) n rest
  obtain ⟨-, hquote, harray, hobject, hnull, htrue, hfalse⟩ := digitChar_ne d
  rw [scalarOr, bind_of_ok hlook]
  simp only [hquote, harray, hobject, hnull, htrue, hfalse, if_false]
  exact map_of_ok (number_write n stops)

theorem reads_scalarOr_string (text : String) :
    Reads (scalarOr onArray onObject) (Json.string text).write (.string text) := by
  intro rest _
  rw [scalarOr, bind_of_ok (look_string text rest)]
  simp only [if_true]
  exact map_of_ok (string_write text)

end Scalar

theorem reads_value_word (nesting : Nat) (n : UInt64) :
    Reads (value (ε := ε) nesting) (Json.ofWord n).write (.ofWord n) := by
  cases nesting with
  | zero => exact reads_scalarOr_word _ _ n
  | succ nesting => exact reads_scalarOr_word _ _ n

theorem reads_value_string (nesting : Nat) (text : String) :
    Reads (value (ε := ε) nesting) (Json.string text).write (.string text) := by
  cases nesting with
  | zero => exact reads_scalarOr_string _ _ text
  | succ nesting => exact reads_scalarOr_string _ _ text

theorem reads_skip_word (n : UInt64) : Reads (skip (ε := ε)) (Json.ofWord n).write () := by
  intro rest stops
  obtain ⟨d, hlook⟩ := look_word (ε := ε) n rest
  obtain ⟨-, hquote, harray, hobject, hnull, htrue, hfalse⟩ := digitChar_ne d
  have hliteral : literal (ε := ε) ((Json.ofWord n).write.map .char ++ rest) =
      .ok ⟨false, digitsOf n.toNat, [], none⟩ rest := by
    rw [Json.ofWord, Json.write, Number.write_natural]
    exact literal_digitsOf n.toNat stops
  rw [skip, get_bind, skipWithin, bind_of_ok hlook]
  simp only [hquote, harray, hobject, hnull, htrue, hfalse, if_false]
  rw [bind_of_ok hliteral]
  rfl

theorem reads_skip_string (text : String) :
    Reads (skip (ε := ε)) (Json.string text).write () := by
  intro rest _
  rw [skip, get_bind, skipWithin, bind_of_ok (look_string text rest)]
  simp only [if_true]
  exact skipString_write text

end Reader

/-! ## Objects -/

/-- What comes of members whose values are read back one after the other. -/
inductive Folds {ε σ : Type} (member : String → σ → Reader ε σ) :
    σ → List (String × Json) → σ → Prop where
  | nil (built : σ) : Folds member built [] built
  | cons {built next final : σ} {name : String} {value : Json} {ms : List (String × Json)}
    (h : Reads (member name built) value.write next) (rest : Folds member next ms final) :
    Folds member built ((name, value) :: ms) final

namespace Folds

variable {ε σ : Type} {member : String → σ → Reader ε σ} {built next final : σ}
  {name : String} {value : Json} {ms later : List (String × Json)}

theorem one (h : Reads (member name built) value.write final) :
    Folds member built [(name, value)] final := .cons h (.nil final)

theorem append (h : Folds member built ms next) (rest : Folds member next later final) :
    Folds member built (ms ++ later) final := by
  induction h with
  | nil built => exact rest
  | cons h _ ih => exact .cons h (ih rest)

end Folds

theorem length_le_writeMembers (after : Bool) (ms : List (String × Json)) :
    ms.length ≤ (writeMembers after ms).length := by
  induction ms generalizing after with
  | nil => exact Nat.zero_le _
  | cons m ms ih =>
    have hrest := ih true
    simp only [writeMembers, List.length_append, List.length_cons]
    omega

/-- After a value comes a comma or the end of the object. -/
theorem stops_writeMembers (ms : List (String × Json)) (rest : Source) :
    Stops ((writeMembers true ms).map .char ++ .char '\x7d' :: rest) := by
  cases ms with
  | nil => exact ⟨rfl, by decide, by decide, by decide⟩
  | cons m ms => exact ⟨rfl, by decide, by decide, by decide⟩

theorem writeMembers_cons_map (first : Bool) (name : String) (value : Json)
    (ms : List (String × Json)) (rest : Source) :
    (writeMembers (!first) ((name, value) :: ms)).map .char ++ .char '\x7d' :: rest =
      (if !first then [Piece.char ','] else []) ++ ((writeString name).map .char ++ .char ':' ::
        (value.write.map .char ++ ((writeMembers true ms).map .char ++ .char '\x7d' :: rest))) := by
  cases first <;> simp only [writeMembers, Bool.not_true, Bool.not_false, Bool.false_eq_true,
    if_true, if_false, List.map_append, List.map_cons, List.append_assoc, List.cons_append,
    List.nil_append]

namespace Reader

variable {ε σ : Type} {member : String → σ → Reader ε σ} {built next final : σ} {rest : Source}

/-- One turn of the loop over members. -/
theorem members_turn {name : String} {value : Json} (first : Bool) (turns : Nat)
    (h : Reads (member name built) value.write next) (stops : Stops rest) :
    members string member (turns + 1) first built
      ((if !first then [Piece.char ','] else []) ++
        ((writeString name).map .char ++ .char ':' :: (value.write.map .char ++ rest))) =
      members string member turns false next rest := by
  have hmore : more (ε := ε) '\x7d' first
      ((if !first then [Piece.char ','] else []) ++
        ((writeString name).map .char ++ .char ':' :: (value.write.map .char ++ rest))) =
      .ok true ((writeString name).map .char ++ .char ':' :: (value.write.map .char ++ rest)) := by
    rw [writeString_map]
    cases first <;> rfl
  rw [members, bind_of_ok hmore]
  simp only [if_true]
  rw [bind_of_ok (string_write name), bind_of_ok (expect_char rfl), bind_of_ok (h rest stops)]

theorem members_write {ms : List (String × Json)} (h : Folds member built ms final) (first : Bool)
    {turns : Nat} (enough : ms.length < turns) :
    members string member turns first built
      ((writeMembers (!first) ms).map .char ++ .char '\x7d' :: rest) =
      .ok final (.char '\x7d' :: rest) := by
  induction h generalizing first turns with
  | nil built =>
    obtain ⟨turns, rfl⟩ : ∃ n, turns = n + 1 := Nat.exists_eq_add_one.mpr enough
    rfl
  | @cons built next final name value ms h _ ih =>
    obtain ⟨turns, rfl⟩ : ∃ n, turns = n + 1 :=
      Nat.exists_eq_add_one.mpr (Nat.zero_lt_of_lt enough)
    rw [writeMembers_cons_map, members_turn first turns h (stops_writeMembers ms rest)]
    exact ih false (Nat.lt_of_succ_lt_succ enough)

/-- **An object that is written is read** as what comes of its members. -/
theorem object_write {ms : List (String × Json)} (h : Folds member built ms final) :
    object string member built ((Json.object ms).write.map .char ++ rest) = .ok final rest := by
  have htext : (Json.object ms).write.map .char ++ rest =
      .char '\x7b' :: ((writeMembers false ms).map .char ++ .char '\x7d' :: rest) := by
    simp only [Json.write, List.map_cons, List.map_append, List.map_nil, List.cons_append,
      List.append_assoc, List.nil_append]
  have hturns : ms.length <
      ((writeMembers false ms).map Piece.char ++ Piece.char '\x7d' :: rest).length := by
    have hle := length_le_writeMembers false ms
    simp only [List.length_append, List.length_map, List.length_cons]
    omega
  rw [htext, object, bind_of_ok (expect_char rfl), get_bind]
  exact closedBy_of_ok rfl (members_write h true hturns)

/-- A record is read from an object of its fields. -/
theorem record_write {fields : Nat → List (Field ε σ)} {ms : List (String × Json)} (nesting : Nat)
    (h : Folds (namedField (fields nesting)) built ms final) :
    record fields built (nesting + 1) ((Json.object ms).write.map .char ++ rest) =
      .ok final rest := by
  have hlook : look (ε := ε) ((Json.object ms).write.map .char ++ rest) =
      .ok (some '\x7b') ((Json.object ms).write.map .char ++ rest) := by
    rw [Json.write]
    rfl
  rw [record, bind_of_ok hlook]
  exact object_write h

theorem readAll_of_ok {α : Type} {x : Reader ε α} {a : α} {source : Source}
    (h : x source = .ok a []) : readAll x source = .ok a := by
  rw [readAll, h]
  exact if_pos rfl

/-! ## Common forms -/

theorem reads_optional_string (nesting : Nat) (text : String) :
    Reads (Wire.read (ε := ε) (α := Option String) nesting) (Json.string text).write
      (some text) := by
  intro rest _
  change optional string _ = _
  rw [optional, bind_of_ok (look_string text rest)]
  exact map_of_ok (string_write text)

/-- A tag that is written by its name. -/
theorem reads_tag {α : Type} {ofName? : String → Option α} {name : String} {a : α}
    (h : ofName? name = some a) (nesting : Nat) :
    Reads (tag (ε := ε) ofName? nesting) (Json.string name).write a := by
  intro rest _
  rw [tag, bind_of_ok (look_string name rest)]
  change (string >>= fun text => require (ofName? text)) _ = _
  rw [Json.write, bind_of_ok (string_write name), h]
  rfl

end Reader

end ClusterAccess.Json
