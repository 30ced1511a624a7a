import HeaderCheck.Proofs.Text.Utf8

/-! The order of texts by code point is the order of their bytes. The first byte of a character
tells how many bytes it has, more of them for a greater code point, and the bytes hold the bits of
the code point from the highest on. -/

namespace HeaderCheck.Utf8

theorem ofNat_lt_ofNat_iff {m n : ℕ} (hm : m < 256) (hn : n < 256) :
    UInt8.ofNat m < UInt8.ofNat n ↔ m < n := by
  rw [UInt8.lt_iff_toNat_lt, (eq_ofNat_iff hm).1 rfl, (eq_ofNat_iff hn).1 rfl]

/-- Of two code points with the same bits in front, the lower one has the lower last bytes. -/
theorem tail_append_lt {m n : ℕ} (hlt : m < n) (count : ℕ)
    (hfront : m / 64 ^ count = n / 64 ^ count) (s t : Bytes) :
    tail count m ++ s < tail count n ++ t := by
  induction count with
  | zero => simp at hfront; omega
  | succ count ih =>
    rw [tail, tail, List.cons_append, List.cons_append, List.cons_lt_cons_iff]
    have hle : m / 64 ^ count ≤ n / 64 ^ count := Nat.div_le_div_right (Nat.le_of_lt hlt)
    rw [Nat.pow_succ, ← Nat.div_div_eq_div_mul, ← Nat.div_div_eq_div_mul] at hfront
    rcases Nat.lt_or_eq_of_le hle with hless | heq
    · refine Or.inl ((ofNat_lt_ofNat_iff ?_ ?_).2 ?_) <;> omega
    · exact Or.inr ⟨by rw [heq], ih heq⟩

theorem lead_le_lead {m n : ℕ} (h : m ≤ n) : lead m ≤ lead n := by
  unfold lead
  split_ifs <;> omega

/-- Code points with the same first byte have as many bytes, and the same bits in that first one. -/
theorem tailLength_of_lead_eq {m n : ℕ} (h : lead m = lead n) :
    tailLength m = tailLength n ∧ m / 64 ^ tailLength m = n / 64 ^ tailLength n := by
  unfold lead at h
  unfold tailLength
  split_ifs at h ⊢ <;> omega

/-- Of two characters the lower one has the lower bytes, whatever follows them. -/
theorem encodeChar_append_lt {c d : Char} (h : c.toNat < d.toNat) (s t : Bytes) :
    String.utf8EncodeChar c ++ s < String.utf8EncodeChar d ++ t := by
  rcases Nat.lt_or_ge d.toNat 0x80 with hd | hd
  · rw [utf8EncodeChar_of_lt (by omega), utf8EncodeChar_of_lt hd, List.singleton_append,
      List.singleton_append, List.cons_lt_cons_iff]
    exact Or.inl ((ofNat_lt_ofNat_iff (by omega) (by omega)).2 h)
  have hlead := lead_bounds hd d.valid
  rw [utf8EncodeChar_of_le hd, List.cons_append]
  rcases Nat.lt_or_ge c.toNat 0x80 with hc | hc
  · rw [utf8EncodeChar_of_lt hc, List.singleton_append, List.cons_lt_cons_iff]
    exact Or.inl ((ofNat_lt_ofNat_iff (by omega) (by omega)).2 (by omega))
  · have hlead' := lead_bounds hc c.valid
    rw [utf8EncodeChar_of_le hc, List.cons_append, List.cons_lt_cons_iff]
    rcases Nat.lt_or_eq_of_le (lead_le_lead (Nat.le_of_lt h)) with hless | heq
    · exact Or.inl ((ofNat_lt_ofNat_iff (by omega) (by omega)).2 hless)
    · obtain ⟨hlength, hfront⟩ := tailLength_of_lead_eq heq
      rw [← hlength] at hfront ⊢
      exact Or.inr ⟨by rw [heq], tail_append_lt h _ hfront s t⟩

theorem utf8EncodeChar_ne_nil (c : Char) : String.utf8EncodeChar c ≠ [] := by
  apply List.ne_nil_of_length_pos
  rw [String.length_utf8EncodeChar]
  exact c.utf8Size_pos

theorem encode_lt_of_lt {s t : Text} (h : s < t) : encode s < encode t := by
  induction s generalizing t with
  | nil =>
    rcases t with _ | ⟨d, t⟩
    · exact absurd h (List.lt_irrefl _)
    · obtain ⟨b, more, hbytes⟩ := List.exists_cons_of_ne_nil (utf8EncodeChar_ne_nil d)
      rw [encode_cons, hbytes]
      exact List.nil_lt_cons b _
  | cons c s ih =>
    rcases t with _ | ⟨d, t⟩
    · cases h
    · rw [encode_cons, encode_cons]
      rcases List.cons_lt_cons_iff.1 h with hlt | ⟨rfl, hrest⟩
      · exact encodeChar_append_lt hlt _ _
      · exact List.append_left_lt (ih hrest)

theorem encode_lt_encode_iff {s t : Text} : encode s < encode t ↔ s < t := by
  refine ⟨?_, encode_lt_of_lt⟩
  intro h
  by_contra hge
  rcases List.le_iff_lt_or_eq.1 (List.not_lt.1 hge) with hlt | rfl
  · exact List.lt_asymm h (encode_lt_of_lt hlt)
  · exact List.lt_irrefl _ h

end HeaderCheck.Utf8
