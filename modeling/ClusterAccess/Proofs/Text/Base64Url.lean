import ClusterAccess.Text.Base64Url

/-!
# Base64url, read back

Writing bytes and reading the text gives the bytes, and what can be read is what is written for its
bytes: no bytes have a second text.  The alphabet has no dot, so that a dot between two texts can be
told from the texts.
-/

namespace ClusterAccess.Text.Base64Url

theorem sixBits?_symbol : ∀ n < 64, sixBits? (symbol n) = some n := by decide

theorem symbol_ne_dot : ∀ n < 64, symbol n ≠ '.' := by decide

theorem ofNat_eq {x : UInt8} {n : Nat} (h : n = x.toNat) : UInt8.ofNat n = x := by
  rw [h, UInt8.ofNat_toNat]

theorem decode?_encode (bytes : List UInt8) : decode? (encode bytes) = some bytes := by
  induction bytes using encode.induct with
  | case1 => rfl
  | case2 x =>
    have hx : x.toNat < 256 := x.toNat_lt
    rw [encode, decode?, sixBits?_symbol _ (by omega), sixBits?_symbol _ (by omega)]
    have hzero : x.toNat % 4 * 16 % 16 = 0 := by omega
    simp only [Option.bind_eq_bind, Option.bind_some, if_pos hzero]
    rw [ofNat_eq (x := x) (by omega)]
  | case3 x y =>
    have hx : x.toNat < 256 := x.toNat_lt
    have hy : y.toNat < 256 := y.toNat_lt
    rw [encode, decode?, sixBits?_symbol _ (by omega), sixBits?_symbol _ (by omega),
      sixBits?_symbol _ (by omega)]
    have hzero : y.toNat % 16 * 4 % 4 = 0 := by omega
    simp only [Option.bind_eq_bind, Option.bind_some, if_pos hzero]
    rw [ofNat_eq (x := x) (by omega), ofNat_eq (x := y) (by omega)]
  | case4 x y z rest ih =>
    have hx : x.toNat < 256 := x.toNat_lt
    have hy : y.toNat < 256 := y.toNat_lt
    have hz : z.toNat < 256 := z.toNat_lt
    rw [encode, decode?, sixBits?_symbol _ (by omega), sixBits?_symbol _ (by omega),
      sixBits?_symbol _ (by omega), sixBits?_symbol _ (by omega), ih]
    simp only [Option.bind_eq_bind, Option.bind_some]
    rw [ofNat_eq (x := x) (by omega), ofNat_eq (x := y) (by omega), ofNat_eq (x := z) (by omega)]
    rfl

theorem dot_not_mem_encode (bytes : List UInt8) : '.' ∉ encode bytes := by
  induction bytes using encode.induct with
  | case1 => exact List.not_mem_nil
  | case2 x =>
    have hx : x.toNat < 256 := x.toNat_lt
    have h₁ := symbol_ne_dot (x.toNat / 4) (by omega)
    have h₂ := symbol_ne_dot (x.toNat % 4 * 16) (by omega)
    simp only [encode, List.mem_cons, List.not_mem_nil, or_false, not_or]
    exact ⟨h₁.symm, h₂.symm⟩
  | case3 x y =>
    have hx : x.toNat < 256 := x.toNat_lt
    have hy : y.toNat < 256 := y.toNat_lt
    have h₁ := symbol_ne_dot (x.toNat / 4) (by omega)
    have h₂ := symbol_ne_dot (x.toNat % 4 * 16 + y.toNat / 16) (by omega)
    have h₃ := symbol_ne_dot (y.toNat % 16 * 4) (by omega)
    simp only [encode, List.mem_cons, List.not_mem_nil, or_false, not_or]
    exact ⟨h₁.symm, h₂.symm, h₃.symm⟩
  | case4 x y z rest ih =>
    have hx : x.toNat < 256 := x.toNat_lt
    have hy : y.toNat < 256 := y.toNat_lt
    have hz : z.toNat < 256 := z.toNat_lt
    have h₁ := symbol_ne_dot (x.toNat / 4) (by omega)
    have h₂ := symbol_ne_dot (x.toNat % 4 * 16 + y.toNat / 16) (by omega)
    have h₃ := symbol_ne_dot (y.toNat % 16 * 4 + z.toNat / 64) (by omega)
    have h₄ := symbol_ne_dot (z.toNat % 64) (by omega)
    simp only [encode, List.mem_cons, not_or]
    exact ⟨h₁.symm, h₂.symm, h₃.symm, h₄.symm, ih⟩

/-! ## No other text -/

theorem symbol_of_sixBits? {c : Char} {n : Nat} (h : sixBits? c = some n) :
    n < 64 ∧ symbol n = c := by
  have hrange {low high : Char} (hc : low ≤ c ∧ c ≤ high) :
      low.toNat ≤ c.toNat ∧ c.toNat ≤ high.toNat := hc
  unfold sixBits? at h
  split at h
  · rename_i hc
    obtain ⟨hlow, hhigh⟩ := hrange hc
    change 65 ≤ c.toNat at hlow
    change c.toNat ≤ 90 at hhigh
    obtain rfl : c.toNat - 65 = n := Option.some.inj h
    refine ⟨by omega, ?_⟩
    rw [symbol, if_pos (by omega)]
    change Char.ofNat (65 + (c.toNat - 65)) = c
    rw [Nat.add_sub_cancel' hlow, Char.ofNat_toNat]
  split at h
  · rename_i hc
    obtain ⟨hlow, hhigh⟩ := hrange hc
    change 97 ≤ c.toNat at hlow
    change c.toNat ≤ 122 at hhigh
    obtain rfl : c.toNat - 97 + 26 = n := Option.some.inj h
    refine ⟨by omega, ?_⟩
    rw [symbol, if_neg (by omega), if_pos (by omega), Nat.add_sub_cancel]
    change Char.ofNat (97 + (c.toNat - 97)) = c
    rw [Nat.add_sub_cancel' hlow, Char.ofNat_toNat]
  split at h
  · rename_i hc
    obtain ⟨hlow, hhigh⟩ := hrange hc
    change 48 ≤ c.toNat at hlow
    change c.toNat ≤ 57 at hhigh
    obtain rfl : c.toNat - 48 + 52 = n := Option.some.inj h
    refine ⟨by omega, ?_⟩
    rw [symbol, if_neg (by omega), if_neg (by omega), if_pos (by omega), Nat.add_sub_cancel]
    change Char.ofNat (48 + (c.toNat - 48)) = c
    rw [Nat.add_sub_cancel' hlow, Char.ofNat_toNat]
  split at h
  · rename_i hc
    cases h
    exact ⟨by decide, hc.symm⟩
  split at h
  · rename_i hc
    cases h
    exact ⟨by decide, hc.symm⟩
  · cases h

theorem toNat_ofNat {n : Nat} (h : n < 256) : (UInt8.ofNat n).toNat = n :=
  UInt8.toNat_ofNat_of_lt' h

/-- **Reading is strict**: what can be read is what is written for the bytes that it gives. -/
theorem encode_of_decode? {text : List Char} {bytes : List UInt8} (h : decode? text = some bytes) :
    encode bytes = text := by
  induction text using decode?.induct generalizing bytes with
  | case1 =>
    cases h
    rfl
  | case2 a => cases h
  | case3 a b =>
    simp only [decode?, Option.bind_eq_bind, Option.bind_eq_some_iff] at h
    obtain ⟨x, hx, y, hy, h⟩ := h
    obtain ⟨hx, rfl⟩ := symbol_of_sixBits? hx
    obtain ⟨hy, rfl⟩ := symbol_of_sixBits? hy
    split at h
    · cases h
      have hfirst : (x * 4 + y / 16) / 4 = x := by omega
      have hsecond : (x * 4 + y / 16) % 4 * 16 = y := by omega
      rw [encode, toNat_ofNat (by omega), hfirst, hsecond]
    · cases h
  | case4 a b c =>
    simp only [decode?, Option.bind_eq_bind, Option.bind_eq_some_iff] at h
    obtain ⟨x, hx, y, hy, z, hz, h⟩ := h
    obtain ⟨hx, rfl⟩ := symbol_of_sixBits? hx
    obtain ⟨hy, rfl⟩ := symbol_of_sixBits? hy
    obtain ⟨hz, rfl⟩ := symbol_of_sixBits? hz
    split at h
    · cases h
      have hfirst : (x * 4 + y / 16) / 4 = x := by omega
      have hsecond : (x * 4 + y / 16) % 4 * 16 + (y % 16 * 16 + z / 4) / 16 = y := by omega
      have hthird : (y % 16 * 16 + z / 4) % 16 * 4 = z := by omega
      rw [encode, toNat_ofNat (by omega), toNat_ofNat (by omega), hfirst, hsecond, hthird]
    · cases h
  | case5 a b c d rest ih =>
    simp only [decode?, Option.bind_eq_bind, Option.bind_eq_some_iff] at h
    obtain ⟨x, hx, y, hy, z, hz, w, hw, more, hmore, h⟩ := h
    obtain ⟨hx, rfl⟩ := symbol_of_sixBits? hx
    obtain ⟨hy, rfl⟩ := symbol_of_sixBits? hy
    obtain ⟨hz, rfl⟩ := symbol_of_sixBits? hz
    obtain ⟨hw, rfl⟩ := symbol_of_sixBits? hw
    cases h
    have hfirst : (x * 4 + y / 16) / 4 = x := by omega
    have hsecond : (x * 4 + y / 16) % 4 * 16 + (y % 16 * 16 + z / 4) / 16 = y := by omega
    have hthird : (y % 16 * 16 + z / 4) % 16 * 4 + (z % 4 * 64 + w) / 64 = z := by omega
    have hfourth : (z % 4 * 64 + w) % 64 = w := by omega
    rw [encode, toNat_ofNat (by omega), toNat_ofNat (by omega), toNat_ofNat (by omega), ih hmore,
      hfirst, hsecond, hthird, hfourth]

theorem dot_not_mem_of_decode? {text : List Char} {bytes : List UInt8}
    (h : decode? text = some bytes) : '.' ∉ text :=
  encode_of_decode? h ▸ dot_not_mem_encode bytes

end ClusterAccess.Text.Base64Url
