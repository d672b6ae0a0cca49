import Mathlib.Tactic.ByContra
import Mathlib.Tactic.SplitIfs
import TopicLoad.Keyed

/-! Names in the order of their bytes. In UTF-8 a greater character has the greater bytes, so that the order
of texts by characters, in which names are kept, is their order by bytes. -/
namespace TopicLoad
namespace Text

def bytes (cs : List Char) : List UInt8 := cs.flatMap String.utf8EncodeChar

@[simp] theorem bytes_nil : bytes [] = [] := rfl

@[simp] theorem bytes_cons (c : Char) (cs : List Char) :
    bytes (c :: cs) = String.utf8EncodeChar c ++ bytes cs := by
  simp [bytes]

theorem ofNat_cons_lt_cons {m n : Nat} (hm : m < 256) (hn : n < 256) {as bs : List UInt8} :
    UInt8.ofNat m :: as < UInt8.ofNat n :: bs ↔ m < n ∨ m = n ∧ as < bs := by
  rw [List.cons_lt_cons_iff, UInt8.lt_iff_toNat_lt, ← UInt8.toNat_inj, UInt8.toNat_ofNat_of_lt' hm,
    UInt8.toNat_ofNat_of_lt' hn]

/-- The bytes of a character are below those of every greater one, whatever comes behind either. -/
theorem encode_lt {c d : Char} (h : c < d) (as bs : List UInt8) :
    String.utf8EncodeChar c ++ as < String.utf8EncodeChar d ++ bs := by
  have hlt : c.val.toNat < d.val.toNat := h
  have hd : d.val.toNat < 0x110000 := by
    rcases d.valid with hsmall | hlarge
    · exact Nat.lt_trans hsmall (by decide)
    · exact hlarge.2
  -- Six bits go into every byte but the first.
  have hdigits (k : Nat) (hk : k < 0x110000) : k =
      262144 * (k / 262144 % 8) + 4096 * (k / 4096 % 64) + 64 * (k / 64 % 64) + k % 64 := by omega
  have hm := hdigits c.val.toNat (by omega)
  have hn := hdigits d.val.toNat hd
  simp only [String.utf8EncodeChar]
  generalize c.val.toNat = m at *
  generalize d.val.toNat = n at *
  split_ifs <;> simp only [List.cons_append, List.nil_append]
  all_goals
    repeat rw [ofNat_cons_lt_cons (by omega) (by omega)]
    omega

theorem bytes_lt_of_lt {cs ds : List Char} (h : cs < ds) : bytes cs < bytes ds := by
  induction cs generalizing ds with
  | nil =>
    cases ds with
    | nil => exact absurd h (List.lt_irrefl [])
    | cons d ds =>
      have hne : bytes (d :: ds) ≠ [] := by simp [String.utf8EncodeChar_ne_nil]
      obtain ⟨b, bs, hbs⟩ := List.exists_cons_of_ne_nil hne
      rw [hbs]
      exact List.nil_lt_cons b bs
  | cons c cs ih =>
    cases ds with
    | nil => exact absurd h (List.not_lt_nil _)
    | cons d ds =>
      rw [bytes_cons, bytes_cons]
      rcases List.cons_lt_cons_iff.mp h with hcd | ⟨rfl, hrest⟩
      · exact encode_lt hcd _ _
      · exact List.append_left_lt (ih hrest)

theorem bytes_lt_iff {s t : String} : bytes s.toList < bytes t.toList ↔ s < t := by
  constructor
  · intro h
    by_contra hst
    rcases Std.le_iff_lt_or_eq.mp (String.not_lt.mp hst) with hts | rfl
    · exact List.lt_asymm h (bytes_lt_of_lt hts)
    · exact List.lt_irrefl _ h
  · exact fun h => bytes_lt_of_lt h

theorem bytes_le_iff {s t : String} : bytes s.toList ≤ bytes t.toList ↔ s ≤ t := by
  rw [← List.not_lt, bytes_lt_iff, String.not_lt]

end Text

theorem Keyed.ordered_iff_bytes {α : Type} {m : Keyed α} :
    m.Ordered ↔ m.Pairwise fun a b => Text.bytes a.1.toList < Text.bytes b.1.toList := by
  simp only [Keyed.Ordered, Text.bytes_lt_iff]

end TopicLoad
