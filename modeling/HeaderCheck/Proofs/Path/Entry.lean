import HeaderCheck.Path.Basic
import HeaderCheck.Text.Utf8
import Mathlib.Data.List.Basic

/-! Paths of the entries of a directory, as they are spelled. From the spelling of a path below a
directory the name that follows the directory can be read off again. -/

namespace HeaderCheck

namespace Path

/-- What the paths of all entries of the directory begin with. -/
def stem (p : Path) : Text :=
  if p.text = [] ∨ p.text.getLast? = some '/' then p.text else p.text ++ ['/']

theorem mem_stem {c : Char} {p : Path} (h : c ∈ p.stem) : c ∈ p.text ∨ c = '/' := by
  unfold stem at h
  split_ifs at h
  · exact Or.inl h
  · simpa using h

theorem join_of_isAbsolute {p q : Path} (h : q.isAbsolute = true) : p.join q = q := by
  rw [join, if_pos h]

theorem isAbsolute_of_no_slash {name : Text} (h : '/' ∉ name) :
    (Path.mk name).isAbsolute = false := by
  cases name with
  | nil => rfl
  | cons c name => simpa [isAbsolute] using (List.ne_of_not_mem_cons h).symm

theorem text_join {q : Path} (hq : q.isAbsolute = false) (p : Path) :
    (p.join q).text = p.stem ++ q.text := by
  rw [join, if_neg (by simp [hq]), stem]
  split_ifs <;> simp

theorem text_entry {name : Text} (h : '/' ∉ name) (p : Path) :
    (p.entry name).text = p.stem ++ name :=
  text_join (isAbsolute_of_no_slash h) p

theorem isAbsolute_join {p q : Path} (hp : p.text ≠ []) (hq : q.isAbsolute = false) :
    (p.join q).isAbsolute = p.isAbsolute := by
  obtain ⟨c, t, ht⟩ := List.exists_cons_of_ne_nil hp
  rw [isAbsolute, isAbsolute, text_join hq, stem, ht]
  split_ifs <;> rfl

theorem isAbsolute_join_of_isAbsolute {p : Path} (hp : p.isAbsolute = true) (q : Path) :
    (p.join q).isAbsolute = true := by
  have hne : p.text ≠ [] := fun hnil => by simp [isAbsolute, hnil] at hp
  cases hq : q.isAbsolute with
  | true => rw [join_of_isAbsolute hq, hq]
  | false => rw [isAbsolute_join hne hq, hp]

theorem isAbsolute_entry_eq {p : Path} (hne : p.text ≠ []) {name : Text} (h : '/' ∉ name) :
    (p.entry name).isAbsolute = p.isAbsolute :=
  isAbsolute_join hne (isAbsolute_of_no_slash h)

theorem isAbsolute_entry {p : Path} (hp : p.isAbsolute = true) (name : Text) :
    (p.entry name).isAbsolute = true :=
  isAbsolute_join_of_isAbsolute hp ⟨name⟩

theorem stem_join {q : Path} (hq : q.isAbsolute = false) (hne : q.text ≠ []) (p : Path) :
    (p.join q).stem = p.stem ++ q.stem := by
  have hleft : p.stem ++ q.text ≠ [] := List.append_ne_nil_of_right_ne_nil _ hne
  rw [stem.eq_1 (p.join q), stem.eq_1 q, text_join hq, List.getLast?_append_of_ne_nil _ hne]
  simp only [hleft, hne, false_or]
  split_ifs <;> simp

theorem stem_entry {name : Text} (hne : name ≠ []) (h : '/' ∉ name) (p : Path) :
    (p.entry name).stem = p.stem ++ name ++ ['/'] := by
  have hlast : (p.stem ++ name).getLast? ≠ some '/' := by
    rw [List.getLast?_append_of_ne_nil _ hne]
    exact fun hl => h (List.mem_of_getLast? hl)
  rw [stem, text_entry h, if_neg (not_or.2 ⟨by simp [hne], hlast⟩)]

/-- The name that follows the directory in the spelling of a path below it. -/
def nameBelow (dir p : Path) : Text := (p.text.drop dir.stem.length).takeWhile (· ≠ '/')

theorem nameBelow_of_text {dir p : Path} {name tail : Text} (h : '/' ∉ name)
    (hp : p.text = dir.stem ++ name ++ tail) (htail : ∀ c ∈ tail.head?, c = '/') :
    dir.nameBelow p = name := by
  have hall : ∀ c ∈ name, decide (c ≠ '/') = true := fun c hc =>
    decide_eq_true fun e => h (e ▸ hc)
  rw [nameBelow, hp, List.append_assoc, List.drop_left, List.takeWhile_append_of_pos hall]
  cases tail with
  | nil => simp
  | cons c tail => simp [htail c rfl]

theorem nameBelow_entry {dir : Path} {name : Text} (h : '/' ∉ name) :
    dir.nameBelow (dir.entry name) = name :=
  nameBelow_of_text h ((text_entry h dir).trans (List.append_nil _).symm) (by simp)

end Path

namespace Utf8

theorem size_append (s t : Text) : size (s ++ t) = size s + size t := by
  induction s with
  | nil => simp [size]
  | cons c s ih =>
    rw [List.cons_append, size, size, ih]
    omega

theorem size_le_of_prefix {s t : Text} (h : s <+: t) : size s ≤ size t := by
  obtain ⟨more, rfl⟩ := h
  rw [size_append]
  omega

end Utf8

end HeaderCheck
