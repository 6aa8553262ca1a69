import Mathlib.Data.List.Forall2
import TrinoOdbc.Utf8

/-!
# TrinoOdbc.TextReader

Text put together from pieces, and read as a whole: when none of the pieces is longer than it should
be, the whole is what it should be exactly when every piece is (`reads_intercalate_iff`).
-/

namespace Utf8

/-- UTF-8 read into units, which may fail. A character below 128 stands between what is read in front
of it and what is read behind it. -/
structure Reader (β : Type) where
  read : List UInt8 → Option (List β)
  codes : List Char → List β
  readable : Char → Prop
  codes_append : ∀ s t, codes (s ++ t) = codes s ++ codes t
  read_encode : ∀ s, (∀ c ∈ s, readable c) → read (encode s) = some (codes s)
  read_split : ∀ xs c ys, c.toNat < 128 → read (xs ++ (encode [c] ++ ys)) =
    (read xs).bind fun u => (read ys).map fun v => u ++ (codes [c] ++ v)

namespace Reader

variable {β : Type} {r : Reader β}

/-- What is read of the bytes is no longer than the text. -/
def Bounded (r : Reader β) (bytes : List UInt8) (text : List Char) : Prop :=
  ∀ u, r.read bytes = some u → u.length ≤ (r.codes text).length

/-- What is read of the bytes is the text. -/
def Reads (r : Reader β) (bytes : List UInt8) (text : List Char) : Prop :=
  r.read bytes = some (r.codes text)

theorem Reads.bounded {bytes : List UInt8} {text : List Char} (h : r.Reads bytes text) :
    r.Bounded bytes text := by
  intro u hu
  exact Nat.le_of_eq (congrArg List.length (Option.some.inj (hu.symm.trans h)))

theorem reads_nil (r : Reader β) : r.Reads [] [] := r.read_encode [] nofun

section Split

variable {xs ys : List UInt8} {s t : List Char} {c : Char}

theorem codes_split (r : Reader β) (s t : List Char) (c : Char) :
    r.codes (s ++ c :: t) = r.codes s ++ (r.codes [c] ++ r.codes t) := by
  rw [← List.singleton_append, codes_append, codes_append]

theorem Bounded.split (hc : c.toNat < 128) (hxs : r.Bounded xs s) (hys : r.Bounded ys t) :
    r.Bounded (xs ++ (encode [c] ++ ys)) (s ++ c :: t) := by
  intro w hw
  rw [r.read_split xs c ys hc] at hw
  obtain ⟨u, hu, hw⟩ := Option.bind_eq_some_iff.mp hw
  obtain ⟨v, hv, rfl⟩ := Option.map_eq_some_iff.mp hw
  have hfirst := hxs u hu
  have hsecond := hys v hv
  rw [codes_split]
  simp only [List.length_append]
  omega

theorem reads_split_iff (hc : c.toNat < 128) (hxs : r.Bounded xs s) (hys : r.Bounded ys t) :
    r.Reads (xs ++ (encode [c] ++ ys)) (s ++ c :: t) ↔ r.Reads xs s ∧ r.Reads ys t := by
  unfold Reads
  rw [r.read_split xs c ys hc, codes_split]
  constructor
  · intro h
    obtain ⟨u, hu, h⟩ := Option.bind_eq_some_iff.mp h
    obtain ⟨v, hv, h⟩ := Option.map_eq_some_iff.mp h
    have hfirst := hxs u hu
    have hsecond := hys v hv
    have hlen := congrArg List.length h
    simp only [List.length_append] at hlen
    -- Neither part can make up for the other one.
    obtain ⟨rfl, hrest⟩ := List.append_inj h (by omega)
    obtain ⟨-, rfl⟩ := List.append_inj hrest rfl
    exact ⟨hu, hv⟩
  · rintro ⟨hu, hv⟩
    rw [hu, hv]
    rfl

end Split

section Pieces

variable {pieces : List (List UInt8)} {texts : List (List Char)} {sep close : Char}

/-- Pieces with a separator between them, up to a closing character. -/
theorem bounded_intercalate (hsep : sep.toNat < 128) (hclose : close.toNat < 128)
    (h : List.Forall₂ r.Bounded pieces texts) :
    r.Bounded ((encode [sep]).intercalate pieces ++ encode [close])
      ([sep].intercalate texts ++ [close]) := by
  have hend : r.Bounded (encode [close] ++ []) [close] :=
    Bounded.split hclose r.reads_nil.bounded r.reads_nil.bounded
  rw [List.append_nil] at hend
  induction h with
  | nil => exact hend
  | @cons piece text pieces texts hpiece hpieces ih =>
    cases hpieces with
    | nil =>
      have hlast := Bounded.split hclose hpiece r.reads_nil.bounded
      rw [List.append_nil] at hlast
      simpa using hlast
    | cons hpiece' hpieces' =>
      rw [List.intercalate_cons_cons, List.intercalate_cons_cons]
      simpa using Bounded.split hsep hpiece ih

theorem reads_intercalate_iff (hsep : sep.toNat < 128) (hclose : close.toNat < 128)
    (h : List.Forall₂ r.Bounded pieces texts) :
    r.Reads ((encode [sep]).intercalate pieces ++ encode [close])
        ([sep].intercalate texts ++ [close]) ↔
      List.Forall₂ r.Reads pieces texts := by
  have hend : r.Reads (encode [close] ++ []) [close] :=
    (reads_split_iff hclose r.reads_nil.bounded r.reads_nil.bounded).mpr ⟨r.reads_nil, r.reads_nil⟩
  rw [List.append_nil] at hend
  induction h with
  | nil => exact iff_of_true hend .nil
  | @cons piece text pieces texts hpiece hpieces ih =>
    rw [List.forall₂_cons]
    cases hpieces with
    | nil =>
      have hlast := reads_split_iff hclose hpiece r.reads_nil.bounded
      rw [List.append_nil] at hlast
      simpa [r.reads_nil] using hlast
    | cons hpiece' hpieces' =>
      have hrest := bounded_intercalate hsep hclose (.cons hpiece' hpieces')
      refine Iff.trans ?_ (and_congr_right fun _ => ih)
      rw [List.intercalate_cons_cons, List.intercalate_cons_cons,
        ← reads_split_iff hsep hpiece hrest]
      simp

end Pieces

end Reader

end Utf8
