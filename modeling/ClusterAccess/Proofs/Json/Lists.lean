import ClusterAccess.Proofs.Json.Written

/-!
# Written lists, read back

Words and lists are read from what is written for them.  An array is read item by item, and an item
is told from the end of the array by its first character, which must be neither a blank nor the
closing bracket (`Begins`).
-/

namespace ClusterAccess.Json

open Text (Piece)

variable {ε α β : Type}

/-! ## Readers that go on from a value -/

theorem Reads.map {x : Reader ε α} {text : List Char} {a : α} (h : Reads x text a) (g : α → β) :
    Reads (g <$> x) text (g a) :=
  fun rest stops => Reader.map_of_ok (h rest stops)

/-- What is built of a value that is read. -/
theorem Reads.into {x : Reader ε α} {text : List Char} {a : α} (h : Reads x text a)
    (next : α → β) : Reads (do return next (← x)) text (next a) :=
  fun rest stops => Reader.bind_of_ok (h rest stops)

namespace Reader

/-! ## Words -/

theorem reads_word (n : UInt64) : Reads (word (ε := ε)) (Json.ofWord n).write n := by
  intro rest stops
  obtain ⟨d, hlook⟩ := look_word (ε := ε) n rest
  have hnumber : number (ε := ε) ((Json.ofWord n).write.map .char ++ rest) =
      .ok (.natural n) rest := number_write n stops
  rw [word, bind_of_ok hlook, bind_of_ok hnumber]
  rfl

/-! ## Arrays -/

/-- The text of an item of an array: where it begins, it is seen that the array goes on. -/
def Begins (text : List Char) : Prop :=
  ∃ c rest, text = c :: rest ∧ isSpace c = false ∧ c ≠ ']'

theorem digitChar_ne_bracket : ∀ d : Digit, Nat.digitChar d.val ≠ ']' := by decide

theorem begins_word (n : UInt64) : Begins (Json.ofWord n).write := by
  have hpieces : (Json.ofWord n).write.map Piece.char = _ := Number.write_natural n
  cases hds : digitsOf n.toNat with
  | nil => exact absurd hds (digitsOf_ne_nil _)
  | cons d ds =>
    rw [hds] at hpieces
    obtain ⟨c, rest, htext, hc, -⟩ := List.map_eq_cons_iff.mp hpieces
    obtain rfl : c = Nat.digitChar d.val := Piece.char.inj hc
    exact ⟨_, rest, htext, (digitChar_ne d).1, digitChar_ne_bracket d⟩

/-- Where an item stands, behind a comma if it is not the first one, another item is found. -/
theorem more_item {text : List Char} (h : Begins text) (first : Bool) (rest : Source) :
    more (ε := ε) ']' first
      ((if !first then [Piece.char ','] else []) ++ (text.map .char ++ rest)) =
        .ok true (text.map .char ++ rest) := by
  obtain ⟨c, tail, rfl, hspace, hbracket⟩ := h
  have hlook : look (ε := ε) ((c :: tail).map .char ++ rest) =
      .ok (some c) ((c :: tail).map .char ++ rest) := look_char hspace
  cases first with
  | true =>
    change more ']' true ((c :: tail).map .char ++ rest) = _
    rw [more, bind_of_ok hlook]
    simp only [if_neg hbracket, if_true]
    rfl
  | false =>
    have hcomma : look (ε := ε) (.char ',' :: ((c :: tail).map .char ++ rest)) =
        .ok (some ',') (.char ',' :: ((c :: tail).map .char ++ rest)) := look_char rfl
    have hadvance : advance (ε := ε) (.char ',' :: ((c :: tail).map .char ++ rest)) =
        .ok () ((c :: tail).map .char ++ rest) := rfl
    have hnot : ¬ some c = some ']' := fun heq => hbracket (Option.some.inj heq)
    change more ']' false (.char ',' :: ((c :: tail).map .char ++ rest)) = _
    rw [more, bind_of_ok hcomma]
    simp only [Char.reduceEq, if_false, if_true, Bool.false_eq_true]
    rw [bind_of_ok hadvance, bind_of_ok hlook, if_neg hnot]
    rfl

/-- After an item comes a comma or the end of the array. -/
theorem stops_writeItems (js : List Json) (rest : Source) :
    Stops ((writeItems true js).map .char ++ .char ']' :: rest) := by
  cases js with
  | nil => exact ⟨rfl, by decide, by decide, by decide⟩
  | cons j js => exact ⟨rfl, by decide, by decide, by decide⟩

theorem length_le_writeItems (after : Bool) {js : List Json} (h : ∀ j ∈ js, Begins j.write) :
    js.length ≤ (writeItems after js).length := by
  induction js generalizing after with
  | nil => exact Nat.zero_le _
  | cons j js ih =>
    obtain ⟨c, rest, hj, -, -⟩ := h j List.mem_cons_self
    have hrest := ih true fun j hj => h j (List.mem_cons_of_mem _ hj)
    simp only [writeItems, hj, List.length_append, List.length_cons]
    omega

theorem writeItems_cons_map (first : Bool) (j : Json) (js : List Json) (rest : Source) :
    (writeItems (!first) (j :: js)).map .char ++ .char ']' :: rest =
      (if !first then [Piece.char ','] else []) ++ (j.write.map .char ++
        ((writeItems true js).map .char ++ .char ']' :: rest)) := by
  cases first <;> simp only [writeItems, Bool.not_true, Bool.not_false, Bool.false_eq_true,
    if_true, if_false, List.map_append, List.map_cons, List.append_assoc, List.cons_append,
    List.nil_append]

section Items

variable {item : Reader ε α} {write : α → Json} {as : List α} {rest : Source}

/-- The induction is on the items; each of them takes one turn. -/
theorem items_write (hitem : ∀ a ∈ as, Reads item (write a).write a)
    (hbegins : ∀ a ∈ as, Begins (write a).write) (first : Bool) {turns : Nat}
    (enough : as.length < turns) :
    items item turns first
      ((writeItems (!first) (as.map write)).map .char ++ .char ']' :: rest) =
        .ok as (.char ']' :: rest) := by
  induction as generalizing first turns with
  | nil =>
    obtain ⟨turns, rfl⟩ : ∃ n, turns = n + 1 := Nat.exists_eq_add_one.mpr enough
    rfl
  | cons a as ih =>
    obtain ⟨turns, rfl⟩ : ∃ n, turns = n + 1 :=
      Nat.exists_eq_add_one.mpr (Nat.zero_lt_of_lt enough)
    have hrest := ih (fun b hb => hitem b (.tail _ hb)) (fun b hb => hbegins b (.tail _ hb)) false
      (Nat.lt_of_succ_lt_succ enough)
    rw [List.map_cons, writeItems_cons_map, items,
      bind_of_ok (more_item (hbegins a (.head _)) first _)]
    simp only [if_true]
    rw [bind_of_ok (hitem a (.head _) _ (stops_writeItems _ rest))]
    exact bind_of_ok hrest

/-- **An array that is written is read** item by item. -/
theorem reads_array (hitem : ∀ a ∈ as, Reads item (write a).write a)
    (hbegins : ∀ a ∈ as, Begins (write a).write) :
    Reads (array item) (Json.array (as.map write)).write as := by
  intro rest _
  have htext : (Json.array (as.map write)).write.map .char ++ rest =
      .char '[' :: ((writeItems false (as.map write)).map .char ++ .char ']' :: rest) := by
    simp only [Json.write, List.map_cons, List.map_append, List.map_nil, List.cons_append,
      List.append_assoc, List.nil_append]
  have hbegins' : ∀ j ∈ as.map write, Begins j.write := List.forall_mem_map.mpr hbegins
  have hturns : as.length <
      ((writeItems false (as.map write)).map Piece.char ++ Piece.char ']' :: rest).length := by
    have hle := length_le_writeItems false hbegins'
    rw [List.length_map] at hle
    simp only [List.length_append, List.length_map, List.length_cons]
    omega
  rw [htext, array, bind_of_ok (expect_char rfl), get_bind]
  exact closedBy_of_ok rfl (items_write hitem hbegins true hturns)

end Items

end Reader

end ClusterAccess.Json
