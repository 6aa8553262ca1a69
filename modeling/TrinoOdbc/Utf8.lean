import Mathlib.Data.List.Basic

/-!
# TrinoOdbc.Utf8

UTF-8 as bytes: encoding, and decoding up to the first byte that does not belong to a character.

* `decode_encode_append` — the characters of an encoding are decoded, and decoding goes on behind
  them.
* `decodeChar_eq_some_iff` — a character is decoded from its encoding only.
-/

namespace Utf8

def encode (chars : List Char) : List UInt8 := chars.flatMap String.utf8EncodeChar

/-- The code point `n`, unless it has a shorter encoding or is none. -/
def codePoint (least n : Nat) (rest : List UInt8) : Option (Char × List UInt8) :=
  if least ≤ n ∧ n.isValidChar then some (Char.ofNat n, rest) else none

/-- The low bits of a continuation byte. -/
def continuation (b : UInt8) : Option Nat :=
  if 128 ≤ b.toNat ∧ b.toNat < 192 then some (b.toNat - 128) else none

/-- The first character, and the bytes behind it. -/
def decodeChar : List UInt8 → Option (Char × List UInt8)
  | [] => none
  | a :: rest =>
    if a.toNat < 128 then some (Char.ofNat a.toNat, rest)
    else if a.toNat < 192 then none
    else
      match rest with
      | [] => none
      | b :: rest =>
        (continuation b).bind fun b =>
          if a.toNat < 224 then codePoint 128 ((a.toNat - 192) * 64 + b) rest
          else
            match rest with
            | [] => none
            | c :: rest =>
              (continuation c).bind fun c =>
                if a.toNat < 240 then
                  codePoint 2048 ((a.toNat - 224) * 4096 + b * 64 + c) rest
                else
                  match rest with
                  | [] => none
                  | d :: rest =>
                    (continuation d).bind fun d =>
                      if a.toNat < 248 then
                        codePoint 65536 ((a.toNat - 240) * 262144 + b * 4096 + c * 64 + d) rest
                      else none

/-- At most as many characters as the fuel, and the bytes that are left. -/
def decodeFuel : Nat → List UInt8 → List Char × List UInt8
  | 0, bytes => ([], bytes)
  | fuel + 1, bytes =>
    match decodeChar bytes with
    | none => ([], bytes)
    | some (c, rest) =>
      let (chars, bad) := decodeFuel fuel rest
      (c :: chars, bad)

/-- The characters up to the first byte that does not belong to one, and the bytes from there. -/
def decode (bytes : List UInt8) : List Char × List UInt8 := decodeFuel bytes.length bytes

theorem codePoint_char {least : Nat} (c : Char) {n : Nat} (hn : n = c.toNat) (hle : least ≤ n)
    (rest : List UInt8) : codePoint least n rest = some (c, rest) := by
  subst hn
  have hvalid : c.toNat.isValidChar := c.valid
  rw [codePoint, if_pos ⟨hle, hvalid⟩, Char.ofNat_toNat]

theorem continuation_ofNat {n : Nat} (h : n < 64) :
    continuation (UInt8.ofNat (n + 128)) = some n := by
  have hval : (UInt8.ofNat (n + 128)).toNat = n + 128 := by
    rw [UInt8.toNat_ofNat']
    omega
  rw [continuation, hval, if_pos (by omega)]
  simp

theorem decodeChar_encodeChar (c : Char) (rest : List UInt8) :
    decodeChar (String.utf8EncodeChar c ++ rest) = some (c, rest) := by
  have hc : c.val.toNat = c.toNat := rfl
  have hmax : c.toNat < 1114112 := by
    rcases c.valid with h | h
    · have : c.val.toNat < 55296 := h
      omega
    · have : c.val.toNat < 1114112 := h.2
      omega
  have hbyte : ∀ n, n < 256 → (UInt8.ofNat n).toNat = n := fun n hn => by
    rw [UInt8.toNat_ofNat']
    omega
  unfold String.utf8EncodeChar
  simp only [hc]
  split
  · rename_i h1
    simp only [List.cons_append, List.nil_append, decodeChar, hbyte _ (show c.toNat < 256 by omega)]
    rw [if_pos (by omega), Char.ofNat_toNat]
  · split
    · rename_i h1 h2
      simp only [List.cons_append, List.nil_append, decodeChar,
        hbyte _ (show c.toNat / 64 % 32 + 192 < 256 by omega),
        continuation_ofNat (show c.toNat % 64 < 64 by omega), Option.bind_some]
      rw [if_neg (by omega), if_neg (by omega), if_pos (by omega)]
      exact codePoint_char c (by omega) (by omega) rest
    · split
      · rename_i h1 h2 h3
        simp only [List.cons_append, List.nil_append, decodeChar,
          hbyte _ (show c.toNat / 4096 % 16 + 224 < 256 by omega),
          continuation_ofNat (show c.toNat / 64 % 64 < 64 by omega),
          continuation_ofNat (show c.toNat % 64 < 64 by omega), Option.bind_some]
        rw [if_neg (by omega), if_neg (by omega), if_neg (by omega), if_pos (by omega)]
        exact codePoint_char c (by omega) (by omega) rest
      · rename_i h1 h2 h3
        simp only [List.cons_append, List.nil_append, decodeChar,
          hbyte _ (show c.toNat / 262144 % 8 + 240 < 256 by omega),
          continuation_ofNat (show c.toNat / 4096 % 64 < 64 by omega),
          continuation_ofNat (show c.toNat / 64 % 64 < 64 by omega),
          continuation_ofNat (show c.toNat % 64 < 64 by omega), Option.bind_some]
        rw [if_neg (by omega), if_neg (by omega), if_neg (by omega), if_neg (by omega),
          if_pos (by omega)]
        exact codePoint_char c (by omega) (by omega) rest

theorem toNat_ofNat {n : Nat} (h : n.isValidChar) : (Char.ofNat n).toNat = n := by
  rw [Char.ofNat, dif_pos h]
  rfl

theorem continuation_eq_some {b : UInt8} {n : Nat} (h : continuation b = some n) :
    n < 64 ∧ UInt8.ofNat (n + 128) = b := by
  unfold continuation at h
  split at h
  · rename_i hb
    have hn : b.toNat - 128 = n := Option.some.inj h
    refine ⟨by omega, UInt8.toNat_inj.mp ?_⟩
    rw [UInt8.toNat_ofNat']
    omega
  · cases h

theorem codePoint_eq_some {least n : Nat} {rest rest' : List UInt8} {c : Char}
    (h : codePoint least n rest = some (c, rest')) : least ≤ n ∧ c.toNat = n ∧ rest' = rest := by
  unfold codePoint at h
  split at h
  · rename_i hn
    cases h
    exact ⟨hn.1, toNat_ofNat hn.2, rfl⟩
  · cases h

theorem leading_eq {a : UInt8} {n : Nat} (h : n = a.toNat) : UInt8.ofNat n = a := by
  rw [h, UInt8.ofNat_toNat]

/-- A character is decoded from its encoding only. -/
theorem decodeChar_eq_some {bytes rest : List UInt8} {c : Char}
    (h : decodeChar bytes = some (c, rest)) : bytes = String.utf8EncodeChar c ++ rest := by
  have hval : c.val.toNat = c.toNat := rfl
  cases bytes with
  | nil => cases h
  | cons a bytes =>
    have ha : a.toNat < 256 := a.toNat_lt
    simp only [decodeChar] at h
    split at h
    · rename_i hlow
      have hvalid : a.toNat.isValidChar := .inl (by omega)
      cases h
      simp only [String.utf8EncodeChar, hval, toNat_ofNat hvalid]
      rw [if_pos (by omega), leading_eq rfl]
      rfl
    · split at h
      · cases h
      · cases bytes with
        | nil => cases h
        | cons b bytes =>
          obtain ⟨b', hb, h₁⟩ := Option.bind_eq_some_iff.mp h
          obtain ⟨hb', rfl⟩ := continuation_eq_some hb
          split at h₁
          · obtain ⟨hle, hc, rfl⟩ := codePoint_eq_some h₁
            simp only [String.utf8EncodeChar, hval]
            rw [if_neg (by omega), if_pos (by omega),
              leading_eq (show c.toNat / 64 % 32 + 192 = a.toNat by omega),
              show c.toNat % 64 = b' by omega]
            rfl
          · cases bytes with
            | nil => cases h₁
            | cons d bytes =>
              obtain ⟨d', hd, h₂⟩ := Option.bind_eq_some_iff.mp h₁
              obtain ⟨hd', rfl⟩ := continuation_eq_some hd
              split at h₂
              · obtain ⟨hle, hc, rfl⟩ := codePoint_eq_some h₂
                simp only [String.utf8EncodeChar, hval]
                rw [if_neg (by omega), if_neg (by omega), if_pos (by omega),
                  leading_eq (show c.toNat / 4096 % 16 + 224 = a.toNat by omega),
                  show c.toNat / 64 % 64 = b' by omega, show c.toNat % 64 = d' by omega]
                rfl
              · cases bytes with
                | nil => cases h₂
                | cons e bytes =>
                  obtain ⟨e', he, h₃⟩ := Option.bind_eq_some_iff.mp h₂
                  obtain ⟨he', rfl⟩ := continuation_eq_some he
                  split at h₃
                  · obtain ⟨hle, hc, rfl⟩ := codePoint_eq_some h₃
                    simp only [String.utf8EncodeChar, hval]
                    rw [if_neg (by omega), if_neg (by omega), if_neg (by omega),
                      leading_eq (show c.toNat / 262144 % 8 + 240 = a.toNat by omega),
                      show c.toNat / 4096 % 64 = b' by omega,
                      show c.toNat / 64 % 64 = d' by omega, show c.toNat % 64 = e' by omega]
                    rfl
                  · cases h₃

theorem decodeChar_eq_some_iff {bytes rest : List UInt8} {c : Char} :
    decodeChar bytes = some (c, rest) ↔ bytes = String.utf8EncodeChar c ++ rest := by
  constructor
  · exact decodeChar_eq_some
  · rintro rfl
    exact decodeChar_encodeChar c rest

theorem decodeChar_length {bytes rest : List UInt8} {c : Char}
    (h : decodeChar bytes = some (c, rest)) : rest.length < bytes.length := by
  have hpos := List.length_pos_of_ne_nil (String.utf8EncodeChar_ne_nil (c := c))
  rw [decodeChar_eq_some h, List.length_append]
  omega

/-- A byte of fuel for each byte is enough. -/
theorem decodeFuel_of_le {n : Nat} : ∀ {bytes : List UInt8}, bytes.length ≤ n →
    decodeFuel n bytes = decode bytes := by
  induction n using Nat.strongRecOn with
  | _ n ih =>
    intro bytes hn
    unfold decode
    cases hlen : bytes.length with
    | zero =>
      rw [List.length_eq_zero_iff.mp hlen]
      cases n <;> rfl
    | succ m =>
      obtain ⟨k, rfl⟩ : ∃ k, n = k + 1 := ⟨n - 1, by omega⟩
      simp only [decodeFuel]
      cases hc : decodeChar bytes with
      | none => rfl
      | some p =>
        obtain ⟨c, rest⟩ := p
        have hrest := decodeChar_length hc
        have hfuel : decodeFuel k rest = decode rest := ih k (by omega) (by omega)
        have hfuel' : decodeFuel m rest = decode rest := ih m (by omega) (by omega)
        simp only [hfuel, hfuel']

theorem decode_of_none {bytes : List UInt8} (h : decodeChar bytes = none) :
    decode bytes = ([], bytes) := by
  unfold decode
  cases bytes.length with
  | zero => rfl
  | succ n => simp [decodeFuel, h]

theorem decode_of_some {bytes rest : List UInt8} {c : Char}
    (h : decodeChar bytes = some (c, rest)) :
    decode bytes = (c :: (decode rest).1, (decode rest).2) := by
  have hlen := decodeChar_length h
  obtain ⟨n, hn⟩ : ∃ n, bytes.length = n + 1 := ⟨bytes.length - 1, by omega⟩
  rw [decode, hn]
  simp only [decodeFuel, h]
  rw [decodeFuel_of_le (by omega)]

@[simp] theorem decode_nil : decode [] = ([], []) := rfl

theorem decode_encode_append (chars : List Char) (bytes : List UInt8) :
    decode (encode chars ++ bytes) = (chars ++ (decode bytes).1, (decode bytes).2) := by
  induction chars with
  | nil => rfl
  | cons c chars ih =>
    rw [encode, List.flatMap_cons, List.append_assoc, ← encode,
      decode_of_some (decodeChar_encodeChar c _), ih]
    rfl

theorem decode_encode (chars : List Char) : decode (encode chars) = (chars, []) := by
  simpa using decode_encode_append chars []

/-- The zero byte is the encoding of the character zero, and of no part of another one. -/
theorem encode_injective {chars chars' : List Char} (h : encode chars = encode chars') :
    chars = chars' := by
  have hdecode := congrArg decode h
  rw [decode_encode, decode_encode] at hdecode
  exact congrArg Prod.fst hdecode

theorem zero_mem_encodeChar {c : Char} : 0 ∈ String.utf8EncodeChar c ↔ c = '\x00' := by
  constructor
  · intro h
    have hzero : c.toNat = 0 := by
      have hc : c.val.toNat = c.toNat := rfl
      unfold String.utf8EncodeChar at h
      simp only [hc] at h
      split at h
      · rename_i hle
        have := congrArg UInt8.toNat (List.mem_singleton.mp h)
        rw [UInt8.toNat_ofNat'] at this
        change 0 = _ at this
        omega
      · exfalso
        have hbyte : ∀ n, 128 ≤ n → n < 256 → (0 : UInt8) ≠ UInt8.ofNat n := by
          intro n hlo hhi heq
          have := congrArg UInt8.toNat heq
          rw [UInt8.toNat_ofNat'] at this
          change 0 = _ at this
          omega
        split at h
        · simp only [List.mem_cons, List.not_mem_nil, or_false] at h
          rcases h with h | h
          · exact hbyte _ (by omega) (by omega) h
          · exact hbyte _ (by omega) (by omega) h
        · split at h
          · simp only [List.mem_cons, List.not_mem_nil, or_false] at h
            rcases h with h | h | h
            · exact hbyte _ (by omega) (by omega) h
            · exact hbyte _ (by omega) (by omega) h
            · exact hbyte _ (by omega) (by omega) h
          · simp only [List.mem_cons, List.not_mem_nil, or_false] at h
            rcases h with h | h | h | h
            · exact hbyte _ (by omega) (by omega) h
            · exact hbyte _ (by omega) (by omega) h
            · exact hbyte _ (by omega) (by omega) h
            · exact hbyte _ (by omega) (by omega) h
    exact Char.toNat_inj.mp hzero
  · rintro rfl
    decide

theorem encode_cons (c : Char) (chars : List Char) :
    encode (c :: chars) = String.utf8EncodeChar c ++ encode chars := List.flatMap_cons

/-- What is before the first zero byte is what is before the first zero. -/
theorem takeWhile_encode (chars : List Char) :
    (encode chars).takeWhile (· ≠ 0) = encode (chars.takeWhile (· ≠ '\x00')) := by
  induction chars with
  | nil => rfl
  | cons c chars ih =>
    by_cases hc : c = '\x00'
    · subst hc
      rfl
    · have hbytes : ∀ b ∈ String.utf8EncodeChar c, decide (b ≠ 0) = true := by
        intro b hb
        rw [decide_eq_true_eq]
        rintro rfl
        exact hc (zero_mem_encodeChar.mp hb)
      rw [List.takeWhile_cons_of_pos (by simpa using hc), encode_cons, encode_cons,
        List.takeWhile_append_of_pos hbytes, ih]

/-- What is before the first zero byte decodes to what is before the first zero. -/
theorem decode_takeWhile (bytes : List UInt8) :
    (decode (bytes.takeWhile (· ≠ 0))).1 = (decode bytes).1.takeWhile (· ≠ '\x00') := by
  induction hn : bytes.length using Nat.strongRecOn generalizing bytes with
  | _ n ih =>
    cases hdecode : decodeChar bytes with
    | none =>
      -- A character before the zero would be one of all the bytes.
      have hnone : decodeChar (bytes.takeWhile (· ≠ 0)) = none := by
        rw [Option.eq_none_iff_forall_ne_some]
        rintro ⟨c, rest⟩ hsome
        have hbytes : bytes.takeWhile (· ≠ 0) ++ bytes.dropWhile (· ≠ 0) = bytes :=
          List.takeWhile_append_dropWhile
        rw [decodeChar_eq_some_iff.mp hsome, List.append_assoc] at hbytes
        rw [decodeChar_eq_some_iff.mpr hbytes.symm] at hdecode
        cases hdecode
      rw [decode_of_none hnone, decode_of_none hdecode]
      rfl
    | some p =>
      obtain ⟨c, rest⟩ := p
      have hbytes := decodeChar_eq_some_iff.mp hdecode
      have hlen := decodeChar_length hdecode
      rw [decode_of_some hdecode]
      by_cases hc : c = '\x00'
      · subst hc
        rw [hbytes]
        rfl
      · have hne : ∀ b ∈ String.utf8EncodeChar c, decide (b ≠ 0) = true := by
          intro b hb
          rw [decide_eq_true_eq]
          rintro rfl
          exact hc (zero_mem_encodeChar.mp hb)
        have htake : bytes.takeWhile (· ≠ 0) =
            String.utf8EncodeChar c ++ rest.takeWhile (· ≠ 0) := by
          rw [hbytes, List.takeWhile_append_of_pos hne]
        rw [decode_of_some (decodeChar_eq_some_iff.mpr htake),
          List.takeWhile_cons_of_pos (by simpa using hc)]
        exact congrArg (c :: ·) (ih _ (by omega) rest rfl)

/-- The bytes of a text without characters above 127. -/
theorem encode_ascii {chars : List Char} (h : ∀ c ∈ chars, c.toNat < 128) :
    encode chars = chars.map fun c => UInt8.ofNat c.toNat := by
  induction chars with
  | nil => rfl
  | cons c chars ih =>
    have hc : c.toNat ≤ 127 := Nat.lt_succ_iff.mp (h c List.mem_cons_self)
    rw [encode, List.flatMap_cons, ← encode, ih fun d hd => h d (List.mem_cons_of_mem c hd)]
    simp [String.utf8EncodeChar, hc]

/-- A byte below 128 is a character of its own. -/
theorem encodeChar_of_mem {c : Char} {y : UInt8} (h : y ∈ String.utf8EncodeChar c)
    (hy : y.toNat < 128) : String.utf8EncodeChar c = [y] := by
  have hbyte : ∀ n, 128 ≤ n → n < 256 → y ≠ UInt8.ofNat n := by
    rintro n hlo hhi rfl
    rw [UInt8.toNat_ofNat'] at hy
    omega
  unfold String.utf8EncodeChar at h ⊢
  simp only at h ⊢
  split at h
  · rw [if_pos (by assumption), List.mem_singleton.mp h]
  · exfalso
    split at h
    · simp only [List.mem_cons, List.not_mem_nil, or_false] at h
      rcases h with h | h
      · exact hbyte _ (by omega) (by omega) h
      · exact hbyte _ (by omega) (by omega) h
    · split at h
      · simp only [List.mem_cons, List.not_mem_nil, or_false] at h
        rcases h with h | h | h
        · exact hbyte _ (by omega) (by omega) h
        · exact hbyte _ (by omega) (by omega) h
        · exact hbyte _ (by omega) (by omega) h
      · simp only [List.mem_cons, List.not_mem_nil, or_false] at h
        rcases h with h | h | h | h
        · exact hbyte _ (by omega) (by omega) h
        · exact hbyte _ (by omega) (by omega) h
        · exact hbyte _ (by omega) (by omega) h
        · exact hbyte _ (by omega) (by omega) h

/-- Bytes are the encoding of their characters, and what is no character. -/
theorem decode_eq {bytes : List UInt8} :
    bytes = encode (decode bytes).1 ++ (decode bytes).2 ∧ decodeChar (decode bytes).2 = none := by
  induction hn : bytes.length using Nat.strongRecOn generalizing bytes with
  | _ n ih =>
    cases hdecode : decodeChar bytes with
    | none =>
      rw [decode_of_none hdecode]
      exact ⟨rfl, hdecode⟩
    | some p =>
      obtain ⟨c, rest⟩ := p
      obtain ⟨hrest, hbad⟩ := ih _ (hn ▸ decodeChar_length hdecode) rfl
      rw [decode_of_some hdecode, encode_cons, List.append_assoc, ← hrest]
      exact ⟨decodeChar_eq_some hdecode, hbad⟩

theorem decode_eq_nil_iff {bytes : List UInt8} {chars : List Char} :
    decode bytes = (chars, []) ↔ bytes = encode chars := by
  constructor
  · intro h
    have heq := (@decode_eq bytes).1
    rwa [h, List.append_nil] at heq
  · rintro rfl
    exact decode_encode chars

theorem encode_append (chars chars' : List Char) :
    encode (chars ++ chars') = encode chars ++ encode chars' := List.flatMap_append

theorem decodeChar_append_eq_none {bytes rest : List UInt8} {y : UInt8} (hy : y.toNat < 128)
    (hne : bytes ≠ []) (hnone : decodeChar bytes = none) :
    decodeChar (bytes ++ y :: rest) = none := by
  rw [Option.eq_none_iff_forall_ne_some]
  rintro ⟨c, rest'⟩ hsome
  rcases List.append_eq_append_iff.mp (decodeChar_eq_some hsome) with ⟨r, hchar, hrest⟩ | ⟨r, hbytes, -⟩
  · -- The character would reach the byte, or end in front of it.
    cases r with
    | nil =>
      rw [List.append_nil] at hchar
      rw [← List.append_nil bytes, ← hchar, decodeChar_encodeChar] at hnone
      cases hnone
    | cons z r =>
      obtain ⟨rfl, -⟩ := List.cons.inj hrest
      have hsingle := encodeChar_of_mem (c := c) (by rw [hchar]; simp) hy
      rw [hsingle] at hchar
      cases bytes with
      | nil => exact hne rfl
      | cons z' bytes => simp at hchar
  · rw [hbytes, decodeChar_encodeChar] at hnone
    cases hnone

/-- Bytes on both sides of one below 128 are decoded on their own. -/
theorem decode_split {xs ys : List UInt8} {c : Char} (hc : c.toNat < 128) :
    decode (xs ++ (encode [c] ++ ys)) =
      if (decode xs).2 = [] then ((decode xs).1 ++ c :: (decode ys).1, (decode ys).2)
      else ((decode xs).1, (decode xs).2 ++ (encode [c] ++ ys)) := by
  obtain ⟨hxs, hbad⟩ := @decode_eq xs
  conv_lhs => rw [hxs, List.append_assoc, decode_encode_append]
  split
  · rename_i hnil
    rw [hnil, List.nil_append, decode_encode_append]
    rfl
  · rename_i hne
    have hbyte : encode [c] = [UInt8.ofNat c.toNat] := by
      rw [encode_ascii (by simpa using hc)]
      rfl
    rw [hbyte, List.cons_append, List.nil_append, decode_of_none (decodeChar_append_eq_none _ hne hbad),
      List.append_nil]
    rw [UInt8.toNat_ofNat']
    omega

/-! ## Counting characters -/

/-- A character starts with the byte. -/
def leading (b : UInt8) : Bool := b.toNat < 128 ∨ 192 ≤ b.toNat

/-- The number of characters that start in the bytes. -/
def starts (bytes : List UInt8) : Nat := bytes.countP leading

theorem starts_append (xs ys : List UInt8) : starts (xs ++ ys) = starts xs + starts ys :=
  List.countP_append

theorem starts_take_le (bytes : List UInt8) (n : Nat) : starts (bytes.take n) ≤ starts bytes :=
  (List.take_sublist n bytes).countP_le

theorem starts_le_length (bytes : List UInt8) : starts bytes ≤ bytes.length := List.countP_le_length

theorem starts_encodeChar (c : Char) : starts (String.utf8EncodeChar c) = 1 := by
  have hc : c.val.toNat = c.toNat := rfl
  have hmax : c.toNat < 1114112 := by
    rcases c.valid with h | h
    · have : c.val.toNat < 55296 := h
      omega
    · have : c.val.toNat < 1114112 := h.2
      omega
  have hlead : ∀ n, n < 128 ∨ 192 ≤ n → n < 256 → leading (UInt8.ofNat n) = true := by
    intro n hn hlt
    have hval : (UInt8.ofNat n).toNat = n := by
      rw [UInt8.toNat_ofNat']
      omega
    rw [leading, hval]
    exact decide_eq_true hn
  have hnot : ∀ n, n < 64 → leading (UInt8.ofNat (n + 128)) = false := by
    intro n hlt
    have hval : (UInt8.ofNat (n + 128)).toNat = n + 128 := by
      rw [UInt8.toNat_ofNat']
      omega
    rw [leading, hval]
    exact decide_eq_false (by omega)
  unfold String.utf8EncodeChar starts
  simp only [hc]
  split
  · simp only [List.countP_cons, List.countP_nil, hlead c.toNat (.inl (by omega)) (by omega),
      if_true]
  · split
    · simp only [List.countP_cons, List.countP_nil, Bool.false_eq_true, if_true, if_false,
        hlead (c.toNat / 64 % 32 + 192) (.inr (by omega)) (by omega),
        hnot (c.toNat % 64) (by omega)]
    · split
      · simp only [List.countP_cons, List.countP_nil, Bool.false_eq_true, if_true, if_false,
          hlead (c.toNat / 4096 % 16 + 224) (.inr (by omega)) (by omega),
          hnot (c.toNat / 64 % 64) (by omega), hnot (c.toNat % 64) (by omega)]
      · simp only [List.countP_cons, List.countP_nil, Bool.false_eq_true, if_true, if_false,
          hlead (c.toNat / 262144 % 8 + 240) (.inr (by omega)) (by omega),
          hnot (c.toNat / 4096 % 64) (by omega), hnot (c.toNat / 64 % 64) (by omega),
          hnot (c.toNat % 64) (by omega)]

theorem starts_encode (chars : List Char) : starts (encode chars) = chars.length := by
  induction chars with
  | nil => rfl
  | cons c chars ih =>
    rw [encode_cons, starts_append, starts_encodeChar, ih, List.length_cons, Nat.add_comm]

theorem length_le_encode (chars : List Char) : chars.length ≤ (encode chars).length := by
  rw [← starts_encode chars]
  exact starts_le_length _

/-- An encoding without more bytes than characters. -/
theorem ascii_of_length {chars : List Char} (h : (encode chars).length ≤ chars.length) :
    ∀ c ∈ chars, c.toNat < 128 := by
  induction chars with
  | nil => simp
  | cons c chars ih =>
    have hrest := length_le_encode chars
    have hpos := List.length_pos_of_ne_nil (String.utf8EncodeChar_ne_nil (c := c))
    rw [encode_cons, List.length_append, List.length_cons] at h
    intro d hd
    rcases List.mem_cons.mp hd with rfl | hd
    · by_contra hge
      have hc : d.val.toNat = d.toNat := rfl
      have hlong : 2 ≤ (String.utf8EncodeChar d).length := by
        unfold String.utf8EncodeChar
        simp only [hc]
        rw [if_neg (by omega)]
        split
        · simp
        · split <;> simp
      omega
    · exact ih (by omega) d hd

/-- Bytes below 128 are the encoding of a text. -/
theorem exists_encode_of_ascii {bytes : List UInt8} (h : ∀ b ∈ bytes, b.toNat < 128) :
    ∃ chars, encode chars = bytes ∧ ∀ c ∈ chars, c.toNat < 128 := by
  induction bytes with
  | nil => exact ⟨[], rfl, nofun⟩
  | cons b bytes ih =>
    have hb := h b List.mem_cons_self
    have hval : (Char.ofNat b.toNat).toNat = b.toNat := toNat_ofNat (.inl (by omega))
    obtain ⟨chars, rfl, hchars⟩ := ih fun d hd => h d (List.mem_cons_of_mem b hd)
    have hall : ∀ c ∈ Char.ofNat b.toNat :: chars, c.toNat < 128 := by
      intro c hc
      rcases List.mem_cons.mp hc with rfl | hc
      · rw [hval]
        exact hb
      · exact hchars c hc
    refine ⟨Char.ofNat b.toNat :: chars, ?_, hall⟩
    rw [encode_ascii hall, List.map_cons, ← encode_ascii hchars, hval, UInt8.ofNat_toNat]

end Utf8
