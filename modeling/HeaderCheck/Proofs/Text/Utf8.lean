import HeaderCheck.Text.Utf8
import Mathlib.Algebra.Group.Nat.Defs
import Mathlib.Data.List.Basic
import Mathlib.Tactic.SplitIfs

/-! Reading bytes takes in a character exactly where the bytes go on with the encoding of that
character. So the text that is read from bytes goes on with given characters, none of them U+FFFD,
exactly where the bytes go on with their encoding, and what follows is read for itself. -/

namespace HeaderCheck.Utf8

/-- The last `count` bytes of a code point that has more bytes than these: six bits in each. -/
def tail : ℕ → ℕ → Bytes
  | 0, _ => []
  | count + 1, n => UInt8.ofNat (n / 64 ^ count % 64 + 0x80) :: tail count n

/-- How many bytes a code point from U+0080 on has behind the first. -/
def tailLength (n : ℕ) : ℕ := if n ≤ 0x7FF then 1 else if n ≤ 0xFFFF then 2 else 3

/-- The value of the first byte of a code point from U+0080 on. -/
def lead (n : ℕ) : ℕ :=
  if n ≤ 0x7FF then n / 0x40 + 0xC0
  else if n ≤ 0xFFFF then n / 0x1000 + 0xE0
  else n / 0x40000 + 0xF0

theorem eq_ofNat_iff {b : UInt8} {n : ℕ} (h : n < 256) : b = UInt8.ofNat n ↔ b.toNat = n := by
  rw [← UInt8.toNat_inj, UInt8.toNat_ofNat', Nat.mod_eq_of_lt h]

theorem toNat_ofNat {n : ℕ} (h : n.isValidChar) : (Char.ofNat n).toNat = n := by
  rw [Char.ofNat, dif_pos h]
  rfl

theorem utf8EncodeChar_of_lt {c : Char} (h : c.toNat < 0x80) :
    String.utf8EncodeChar c = [UInt8.ofNat c.toNat] := by
  have hle : c.val.toNat ≤ 0x7F := Nat.le_of_lt_succ h
  rw [String.utf8EncodeChar, if_pos hle]
  rfl

theorem utf8EncodeChar_of_le {c : Char} (h : 0x80 ≤ c.toNat) :
    String.utf8EncodeChar c = UInt8.ofNat (lead c.toNat) :: tail (tailLength c.toNat) c.toNat := by
  have hvalid : c.toNat.isValidChar := c.valid
  have hval : c.val.toNat = c.toNat := rfl
  unfold Nat.isValidChar at hvalid
  rw [String.utf8EncodeChar, hval, if_neg (by omega), lead, tailLength]
  generalize c.toNat = n at *
  split_ifs with htwo hthree
  · have hmod : n / 64 % 32 = n / 64 := Nat.mod_eq_of_lt (by omega)
    simp [tail, hmod]
  · have hmod : n / 4096 % 16 = n / 4096 := Nat.mod_eq_of_lt (by omega)
    simp [tail, hmod]
  · have hmod : n / 262144 % 8 = n / 262144 := Nat.mod_eq_of_lt (by omega)
    simp [tail, hmod]

/-- The bits of the unfinished character are the front of the code point, and the byte that comes
next in the code point may come next. -/
structure Pending.LeadsTo (p : Pending) (n : ℕ) : Prop where
  bits : n / 64 ^ (p.owed + 1) = p.bits
  low : p.low ≤ n / 64 ^ p.owed % 64 + 0x80
  high : n / 64 ^ p.owed % 64 + 0x80 ≤ p.high

/-- The byte may be next in an unfinished character. -/
def Pending.Takes (p : Pending) (b : UInt8) : Prop := p.low ≤ b.toNat ∧ b.toNat ≤ p.high

/-- All bytes but the first of a character lie in this range, if not in a smaller one. -/
def Pending.Bounded (p : Pending) : Prop := 0x80 ≤ p.low ∧ p.high ≤ 0xBF

namespace Pending

variable {p : Pending} {n : ℕ} {b : UInt8}

theorem leadsTo_iff : p.LeadsTo n ↔ n / 64 ^ (p.owed + 1) = p.bits ∧
    p.low ≤ n / 64 ^ p.owed % 64 + 0x80 ∧ n / 64 ^ p.owed % 64 + 0x80 ≤ p.high :=
  ⟨fun h => ⟨h.bits, h.low, h.high⟩, fun ⟨hbits, hlow, hhigh⟩ => ⟨hbits, hlow, hhigh⟩⟩

/-- With the next byte of the code point the bits become the longer front of it. -/
theorem leadsTo_and_eq_iff (hp : p.Bounded) :
    p.LeadsTo n ∧ b = UInt8.ofNat (n / 64 ^ p.owed % 64 + 0x80) ↔
      p.Takes b ∧ n / 64 ^ p.owed = p.bits * 64 + (b.toNat - 0x80) := by
  obtain ⟨hlow, hhigh⟩ := hp
  have hdiv : n / 64 ^ (p.owed + 1) = n / 64 ^ p.owed / 64 := by
    rw [Nat.pow_succ, Nat.div_div_eq_div_mul]
  rw [leadsTo_iff, hdiv, eq_ofNat_iff (by omega), Takes]
  omega

end Pending

section Unfinished

variable {p : Pending} {b : UInt8} {bytes rest : Bytes} {c : Char} {more : List Part}

theorem partsFrom_last (h : p.Takes b) (howed : p.owed = 0) :
    partsFrom (some p) (b :: rest) =
      some (Char.ofNat (p.bits * 64 + (b.toNat - 0x80))) :: parts rest := by
  obtain ⟨owed, low, high, bits⟩ := p
  subst howed
  unfold Pending.Takes at h
  simp [partsFrom, next, h, parts]

theorem partsFrom_onward (h : p.Takes b) {owed : ℕ} (howed : p.owed = owed + 1) :
    partsFrom (some p) (b :: rest) =
      partsFrom (some ⟨owed, 0x80, 0xBF, p.bits * 64 + (b.toNat - 0x80)⟩) rest := by
  obtain ⟨_, low, high, bits⟩ := p
  subst howed
  unfold Pending.Takes at h
  simp [partsFrom, next, h]

theorem partsFrom_broken (h : ¬ p.Takes b) :
    partsFrom (some p) (b :: rest) = none :: parts (b :: rest) := by
  unfold Pending.Takes at h
  simp [partsFrom, next, h, parts]

theorem exists_tail_cons_iff (hp : p.Bounded) :
    (∃ n after, p.LeadsTo n ∧ c = Char.ofNat n ∧ b :: rest = tail (p.owed + 1) n ++ after ∧
        parts after = more) ↔
      p.Takes b ∧ ∃ n after, n / 64 ^ p.owed = p.bits * 64 + (b.toNat - 0x80) ∧
        c = Char.ofNat n ∧ rest = tail p.owed n ++ after ∧ parts after = more := by
  simp only [tail, List.cons_append, List.cons.injEq]
  refine ⟨fun h => ?_, fun h => ?_⟩
  · obtain ⟨n, after, hleads, hc, ⟨hb, hrest⟩, hafter⟩ := h
    obtain ⟨htakes, hfront⟩ := (Pending.leadsTo_and_eq_iff hp).1 ⟨hleads, hb⟩
    exact ⟨htakes, n, after, hfront, hc, hrest, hafter⟩
  · obtain ⟨htakes, n, after, hfront, hc, hrest, hafter⟩ := h
    obtain ⟨hleads, hb⟩ := (Pending.leadsTo_and_eq_iff hp).2 ⟨htakes, hfront⟩
    exact ⟨n, after, hleads, hc, ⟨hb, hrest⟩, hafter⟩

/-- An unfinished character is finished by the last bytes of a code point that it leads to, and by
nothing else. -/
theorem partsFrom_eq_cons_iff (hp : p.Bounded) : partsFrom (some p) bytes = some c :: more ↔
    ∃ n after, p.LeadsTo n ∧ c = Char.ofNat n ∧ bytes = tail (p.owed + 1) n ++ after ∧
      parts after = more := by
  induction bytes generalizing p with
  | nil => simp [partsFrom, tail]
  | cons b rest ih =>
    rw [exists_tail_cons_iff hp]
    by_cases htakes : p.Takes b
    · rw [and_iff_right htakes]
      generalize hbits : p.bits * 64 + (b.toNat - 0x80) = bits
      cases howed : p.owed with
      | zero =>
        rw [partsFrom_last htakes howed, hbits]
        simp [tail, eq_comm]
      | succ owed =>
        have hleads : ∀ n, Pending.LeadsTo ⟨owed, 0x80, 0xBF, bits⟩ n ↔
            n / 64 ^ (owed + 1) = bits := by
          intro n
          simp only [Pending.leadsTo_iff, and_iff_left_iff_imp]
          omega
        rw [partsFrom_onward htakes howed, hbits, ih ⟨Nat.le_refl _, Nat.le_refl _⟩]
        simp only [hleads]
    · rw [partsFrom_broken htakes]
      exact iff_of_false (by simp) fun h => htakes h.1

end Unfinished

section Opening

variable {b : UInt8} {c : Char} {p : Pending} {n first : ℕ}

/-- After the first of two bytes. -/
def Pending.ofTwo (first : ℕ) : Pending := ⟨0, 0x80, 0xBF, first - 0xC0⟩

/-- After the first of three bytes. -/
def Pending.ofThree (first : ℕ) : Pending :=
  ⟨1, if first = 0xE0 then 0xA0 else 0x80, if first = 0xED then 0x9F else 0xBF, first - 0xE0⟩

/-- After the first of four bytes. -/
def Pending.ofFour (first : ℕ) : Pending :=
  ⟨2, if first = 0xF0 then 0x90 else 0x80, if first = 0xF4 then 0x8F else 0xBF, first - 0xF0⟩

theorem opening_eq (b : UInt8) : opening b =
    if b.toNat < 0x80 then .whole (Char.ofNat b.toNat)
    else if b.toNat < 0xC2 then .stray
    else if b.toNat < 0xE0 then .begun (.ofTwo b.toNat)
    else if b.toNat < 0xF0 then .begun (.ofThree b.toNat)
    else if b.toNat < 0xF5 then .begun (.ofFour b.toNat)
    else .stray := by
  unfold opening Pending.ofTwo Pending.ofThree Pending.ofFour
  generalize b.toNat = n
  grind

theorem opening_eq_whole_iff : opening b = .whole c ↔ b.toNat < 0x80 ∧ c = Char.ofNat b.toNat := by
  rw [opening_eq]
  grind

theorem bounded_of_opening (h : opening b = .begun p) : p.Bounded := by
  rw [opening_eq] at h
  unfold Pending.Bounded
  split_ifs at h <;> cases h
  · exact ⟨Nat.le_refl _, Nat.le_refl _⟩
  · simp only [Pending.ofThree]
    grind
  · simp only [Pending.ofFour]
    grind

theorem leadsTo_ofTwo_iff (h : 0xC2 ≤ first) (hlt : first < 0xE0) :
    (Pending.ofTwo first).LeadsTo n ↔ (0x80 ≤ n ∧ n ≤ 0x7FF) ∧ first = n / 0x40 + 0xC0 := by
  simp only [Pending.leadsTo_iff, Pending.ofTwo, Nat.reduceAdd, Nat.reducePow, Nat.div_one]
  omega

theorem leadsTo_ofThree_iff (h : 0xE0 ≤ first) (hlt : first < 0xF0) :
    (Pending.ofThree first).LeadsTo n ↔
      (0x800 ≤ n ∧ n ≤ 0xFFFF ∧ n.isValidChar) ∧ first = n / 0x1000 + 0xE0 := by
  simp only [Pending.leadsTo_iff, Pending.ofThree, Nat.reduceAdd, Nat.reducePow, Nat.isValidChar]
  split_ifs <;> omega

theorem leadsTo_ofFour_iff (h : 0xF0 ≤ first) (hlt : first < 0xF5) :
    (Pending.ofFour first).LeadsTo n ↔
      (0x10000 ≤ n ∧ n.isValidChar) ∧ first = n / 0x40000 + 0xF0 := by
  simp only [Pending.leadsTo_iff, Pending.ofFour, Nat.reduceAdd, Nat.reducePow, Nat.isValidChar]
  split_ifs <;> omega

theorem lead_bounds (hn : 0x80 ≤ n) (hvalid : n.isValidChar) : 0xC2 ≤ lead n ∧ lead n < 0xF5 := by
  unfold Nat.isValidChar at hvalid
  unfold lead
  split_ifs <;> omega

/-- The first byte of a code point leads to it with as many bytes owed as the code point has, and no
other byte does. -/
theorem opening_leadsTo_iff {count : ℕ} :
    (∃ p, opening b = .begun p ∧ p.LeadsTo n ∧ p.owed + 1 = count) ↔
      (0x80 ≤ n ∧ n.isValidChar) ∧ b.toNat = lead n ∧ tailLength n = count := by
  have houtside : b.toNat < 0xC2 ∨ 0xF5 ≤ b.toNat →
      ¬ ((0x80 ≤ n ∧ n.isValidChar) ∧ b.toNat = lead n ∧ tailLength n = count) := by
    intro hb h
    have := lead_bounds h.1.1 h.1.2
    omega
  rw [opening_eq]
  split_ifs with hascii hstray htwo hthree hfour
  · exact iff_of_false (by simp) (houtside (by omega))
  · exact iff_of_false (by simp) (houtside (by omega))
  · simp only [Opening.begun.injEq, exists_eq_left',
      leadsTo_ofTwo_iff (Nat.le_of_not_lt hstray) htwo]
    simp only [Pending.ofTwo, lead, tailLength, Nat.isValidChar]
    split_ifs <;> omega
  · simp only [Opening.begun.injEq, exists_eq_left',
      leadsTo_ofThree_iff (Nat.le_of_not_lt htwo) hthree]
    simp only [Pending.ofThree, lead, tailLength, Nat.isValidChar]
    split_ifs <;> omega
  · simp only [Opening.begun.injEq, exists_eq_left',
      leadsTo_ofFour_iff (Nat.le_of_not_lt hthree) hfour]
    simp only [Pending.ofFour, lead, tailLength, Nat.isValidChar]
    split_ifs <;> omega
  · exact iff_of_false (by simp) (houtside (by omega))

end Opening

section Reading

variable {b : UInt8} {c : Char} {bytes rest : Bytes} {more : List Part}

theorem parts_cons_of_whole (h : opening b = .whole c) :
    parts (b :: rest) = some c :: parts rest := by
  simp [parts, partsFrom, next, first, h]

theorem parts_cons_of_begun {p : Pending} (h : opening b = .begun p) :
    parts (b :: rest) = partsFrom (some p) rest := by
  simp [parts, partsFrom, next, first, h]

theorem parts_cons_of_stray (h : opening b = .stray) :
    parts (b :: rest) = none :: parts rest := by
  simp [parts, partsFrom, next, first, h]

/-- The bytes of a character are read as the character, whatever follows them. -/
theorem parts_encodeChar_append (c : Char) (rest : Bytes) :
    parts (String.utf8EncodeChar c ++ rest) = some c :: parts rest := by
  rcases Nat.lt_or_ge c.toNat 0x80 with hascii | hlong
  · have hb : (UInt8.ofNat c.toNat).toNat = c.toNat := (eq_ofNat_iff (by omega)).1 rfl
    have hopening : opening (UInt8.ofNat c.toNat) = .whole c :=
      opening_eq_whole_iff.2 ⟨by omega, by rw [hb, Char.ofNat_toNat]⟩
    rw [utf8EncodeChar_of_lt hascii, List.singleton_append, parts_cons_of_whole hopening]
  · have hb : (UInt8.ofNat (lead c.toNat)).toNat = lead c.toNat :=
      (eq_ofNat_iff (by have := (lead_bounds hlong c.valid).2; omega)).1 rfl
    obtain ⟨p, hopening, hleads, howed⟩ := opening_leadsTo_iff.2 ⟨⟨hlong, c.valid⟩, hb, rfl⟩
    rw [utf8EncodeChar_of_le hlong, List.cons_append, parts_cons_of_begun hopening]
    exact (partsFrom_eq_cons_iff (bounded_of_opening hopening)).2
      ⟨c.toNat, rest, hleads, (Char.ofNat_toNat c).symm, by rw [howed], rfl⟩

/-- Only the bytes of a character are read as the character. -/
theorem exists_of_parts_eq_cons (h : parts bytes = some c :: more) :
    ∃ rest, bytes = String.utf8EncodeChar c ++ rest ∧ parts rest = more := by
  cases bytes with
  | nil => cases h
  | cons b bytes =>
    cases hopening : opening b with
    | whole d =>
      rw [parts_cons_of_whole hopening, List.cons.injEq, Option.some.injEq] at h
      obtain ⟨rfl, hmore⟩ := h
      obtain ⟨hascii, rfl⟩ := opening_eq_whole_iff.1 hopening
      have hvalid : b.toNat.isValidChar := Or.inl (by omega)
      have hd := toNat_ofNat hvalid
      refine ⟨bytes, ?_, hmore⟩
      rw [utf8EncodeChar_of_lt (by omega), hd, UInt8.ofNat_toNat]
      rfl
    | begun p =>
      rw [parts_cons_of_begun hopening] at h
      obtain ⟨n, rest, hleads, rfl, rfl, hrest⟩ :=
        (partsFrom_eq_cons_iff (bounded_of_opening hopening)).1 h
      obtain ⟨⟨hn, hvalid⟩, hb, hlength⟩ := opening_leadsTo_iff.1 ⟨p, hopening, hleads, rfl⟩
      have hc := toNat_ofNat hvalid
      refine ⟨rest, ?_, hrest⟩
      rw [utf8EncodeChar_of_le (by omega), hc, ← hb, UInt8.ofNat_toNat, hlength]
      rfl
    | stray =>
      rw [parts_cons_of_stray hopening] at h
      cases h

/-- No bytes are read as nothing. -/
theorem partsFrom_some_ne_nil (p : Pending) (bytes : Bytes) : partsFrom (some p) bytes ≠ [] := by
  induction bytes generalizing p with
  | nil => simp [partsFrom]
  | cons b rest ih =>
    by_cases htakes : p.Takes b
    · cases howed : p.owed with
      | zero => simp [partsFrom_last htakes howed]
      | succ owed =>
        rw [partsFrom_onward htakes howed]
        exact ih _
    · simp [partsFrom_broken htakes]

theorem decodeLossy_eq_nil_iff : decodeLossy bytes = [] ↔ bytes = [] := by
  refine ⟨fun h => ?_, fun h => h ▸ rfl⟩
  cases bytes with
  | nil => rfl
  | cons b rest =>
    rw [decodeLossy, List.map_eq_nil_iff] at h
    cases hopening : opening b with
    | whole c => simp [parts_cons_of_whole hopening] at h
    | begun p =>
      rw [parts_cons_of_begun hopening] at h
      exact absurd h (partsFrom_some_ne_nil p rest)
    | stray => simp [parts_cons_of_stray hopening] at h

theorem encode_cons (c : Char) (t : Text) : encode (c :: t) = String.utf8EncodeChar c ++ encode t :=
  List.flatMap_cons

/-- Encoded text is read as it is, and what follows it is read as if it stood alone. -/
theorem decodeLossy_encode_append (t : Text) (rest : Bytes) :
    decodeLossy (encode t ++ rest) = t ++ decodeLossy rest := by
  induction t with
  | nil => rfl
  | cons c t ih =>
    rw [encode_cons, List.append_assoc, decodeLossy, parts_encodeChar_append, List.map_cons,
      List.cons_append, ← ih]
    rfl

theorem decodeLossy_encode (t : Text) : decodeLossy (encode t) = t := by
  have happend := decodeLossy_encode_append t []
  rwa [List.append_nil, decodeLossy_eq_nil_iff.2 rfl, List.append_nil] at happend

/-- And no other bytes are read as the text, unless U+FFFD is in it. -/
theorem decodeLossy_eq_append_iff {t u : Text} (ht : '\uFFFD' ∉ t) :
    decodeLossy bytes = t ++ u ↔ ∃ rest, bytes = encode t ++ rest ∧ decodeLossy rest = u := by
  refine ⟨fun h => ?_, fun h => ?_⟩
  · induction t generalizing bytes with
    | nil => exact ⟨bytes, rfl, h⟩
    | cons c t ih =>
      obtain ⟨hc, ht⟩ := List.ne_and_not_mem_of_not_mem_cons ht
      obtain ⟨part, more, hparts, hpart, hmore⟩ := List.map_eq_cons_iff.1 h
      have hsome : part = some c := by
        cases part with
        | none => exact absurd hpart hc
        | some d => exact congrArg some hpart
      obtain ⟨behind, rfl, hbehind⟩ := exists_of_parts_eq_cons (hsome ▸ hparts)
      obtain ⟨rest, rfl, hrest⟩ := ih ht (hbehind ▸ hmore)
      exact ⟨rest, by rw [encode_cons, List.append_assoc], hrest⟩
  · obtain ⟨rest, rfl, rfl⟩ := h
    exact decodeLossy_encode_append t rest

theorem decodeLossy_eq_iff {t : Text} (ht : '\uFFFD' ∉ t) :
    decodeLossy bytes = t ↔ bytes = encode t := by
  have happend : decodeLossy bytes = t ++ [] ↔ _ := decodeLossy_eq_append_iff ht
  simpa [decodeLossy_eq_nil_iff] using happend

end Reading

end HeaderCheck.Utf8
