/-
# `Lib.Utf8` — text and its bytes

`encode` writes a string as UTF-8.  `decode` reads bytes as a sequence of
characters and of ill-formed pieces, each piece as long as the reader can follow
it (a maximal subpart); `fromUtf8` refuses any such piece and
`fromUtf8Lossy` puts `U+FFFD` for each.

An ASCII byte of an encoding comes from an ASCII character (`mem_encode_ascii`):
a separator that is not in the text is not in its bytes.  Bytes are a sequence of pieces,
so facts about lossy text are inductions over the pieces (`piece_induction`):

    encoded text is read back                     (`lossy_encode`)
    text is cut at an ASCII byte                  (`lossy_append_ascii`)
    lossy text written again is no shorter, and
      is the same exactly if the bytes are text   (`length_le_encode_lossy`, `encode_lossy_iff`)
-/
import Mathlib
import Weiterleitung.Lib.Text

abbrev Bytes := List UInt8

namespace Utf8

/-! ## Encoding -/

def encode (s : Str) : Bytes := s.flatMap String.utf8EncodeChar

@[simp] theorem encode_nil : encode [] = [] := rfl

@[simp] theorem encode_append (s t : Str) : encode (s ++ t) = encode s ++ encode t := by
  simp [encode]

@[simp] theorem encode_flatten (ss : List Str) :
    encode ss.flatten = (ss.map encode).flatten := by
  induction ss with
  | nil => rfl
  | cons s ss ih => simp [ih]

theorem encode_singleton_ascii {c : Char} (h : c.toNat < 128) :
    encode [c] = [UInt8.ofNat c.toNat] := by
  have h' : c.val.toNat ≤ 127 := Nat.le_of_lt_succ h
  show String.utf8EncodeChar c ++ [] = _
  rw [List.append_nil, String.utf8EncodeChar]
  exact if_pos h'

/-- A byte below 128 of a character's encoding is the character itself. -/
theorem mem_utf8EncodeChar_ascii {c : Char} {b : UInt8} (hb : b.toNat < 128)
    (h : b ∈ String.utf8EncodeChar c) : c.toNat = b.toNat := by
  have hc : c.val.toNat = c.toNat := rfl
  unfold String.utf8EncodeChar at h
  simp only [hc] at h
  split at h
  · rw [List.mem_singleton] at h
    rw [h, UInt8.toNat_ofNat']
    omega
  · split at h
    · simp only [List.mem_cons, List.not_mem_nil, or_false] at h
      rcases h with rfl | rfl <;> rw [UInt8.toNat_ofNat'] at hb <;> omega
    · split at h
      · simp only [List.mem_cons, List.not_mem_nil, or_false] at h
        rcases h with rfl | rfl | rfl <;> rw [UInt8.toNat_ofNat'] at hb <;> omega
      · simp only [List.mem_cons, List.not_mem_nil, or_false] at h
        rcases h with rfl | rfl | rfl | rfl <;> rw [UInt8.toNat_ofNat'] at hb <;> omega

theorem mem_encode_ascii {s : Str} {c : Char} (hc : c.toNat < 128)
    (h : UInt8.ofNat c.toNat ∈ encode s) : c ∈ s := by
  obtain ⟨d, hd, hb⟩ := List.mem_flatMap.mp h
  have hn : (UInt8.ofNat c.toNat).toNat = c.toNat := by
    rw [UInt8.toNat_ofNat']
    omega
  have he := mem_utf8EncodeChar_ascii (by omega) hb
  rw [hn] at he
  have : d = c := Char.ext (UInt32.toNat_inj.mp he)
  exact this ▸ hd

/-! ## Decoding -/

/-- A continuation byte. -/
def isCont (b : UInt8) : Bool := b &&& 0xC0 = 0x80

/-- May `b` follow the first byte `a` of a three byte sequence? -/
def second3 (a b : UInt8) : Bool :=
  (a = 0xE0 && 0xA0 ≤ b && b ≤ 0xBF) || (0xE1 ≤ a && a ≤ 0xEC && 0x80 ≤ b && b ≤ 0xBF) ||
    (a = 0xED && 0x80 ≤ b && b ≤ 0x9F) || (0xEE ≤ a && a ≤ 0xEF && 0x80 ≤ b && b ≤ 0xBF)

/-- May `b` follow the first byte `a` of a four byte sequence? -/
def second4 (a b : UInt8) : Bool :=
  (a = 0xF0 && 0x90 ≤ b && b ≤ 0xBF) || (0xF1 ≤ a && a ≤ 0xF3 && 0x80 ≤ b && b ≤ 0xBF) ||
    (a = 0xF4 && 0x80 ≤ b && b ≤ 0x8F)

/-- The payload of a continuation byte. -/
def low6 (b : UInt8) : Nat := b.toNat % 64

/-- The characters of a byte sequence, `none` for each ill-formed piece. -/
def decode : Bytes → List (Option Char)
  | [] => []
  | a :: s =>
      if a < 0x80 then some (Char.ofNat a.toNat) :: decode s
      else if 0xC2 ≤ a && a ≤ 0xDF then
        match s with
        | b :: s₁ =>
            if isCont b then some (Char.ofNat (a.toNat % 32 * 64 + low6 b)) :: decode s₁
            else none :: decode (b :: s₁)
        | [] => [none]
      else if 0xE0 ≤ a && a ≤ 0xEF then
        match s with
        | b :: s₁ =>
            if second3 a b then
              match s₁ with
              | c :: s₂ =>
                  if isCont c then
                    some (Char.ofNat (a.toNat % 16 * 4096 + low6 b * 64 + low6 c)) :: decode s₂
                  else none :: decode (c :: s₂)
              | [] => [none]
            else none :: decode (b :: s₁)
        | [] => [none]
      else if 0xF0 ≤ a && a ≤ 0xF4 then
        match s with
        | b :: s₁ =>
            if second4 a b then
              match s₁ with
              | c :: s₂ =>
                  if isCont c then
                    match s₂ with
                    | d :: s₃ =>
                        if isCont d then
                          some (Char.ofNat (a.toNat % 8 * 262144 + low6 b * 4096 + low6 c * 64
                            + low6 d)) :: decode s₃
                        else none :: decode (d :: s₃)
                    | [] => [none]
                  else none :: decode (c :: s₂)
              | [] => [none]
            else none :: decode (b :: s₁)
        | [] => [none]
      else none :: decode s

/-- The text, if every byte belongs to a character. -/
def fromUtf8 (s : Bytes) : Option Str := (decode s).mapM id

/-- The text, with `U+FFFD` for each ill-formed piece. -/
def fromUtf8Lossy (s : Bytes) : Str := (decode s).map (·.getD '\uFFFD')

example : fromUtf8Lossy [0x61, 0xC3, 0xA4, 0xE2, 0x82, 0x0A, 0xFF] = "aä�\n�".toList := by
  decide

/-! ### Ranges -/

theorem isCont_iff (b : UInt8) : isCont b = true ↔ 128 ≤ b.toNat ∧ b.toNat < 192 := by
  cases b with
  | ofBitVec b =>
    cases b with
    | ofFin b =>
      revert b
      decide +kernel

theorem second3_iff (a b : UInt8) : second3 a b = true ↔
    (a.toNat = 0xE0 ∧ 0xA0 ≤ b.toNat ∧ b.toNat ≤ 0xBF) ∨
    (0xE1 ≤ a.toNat ∧ a.toNat ≤ 0xEC ∧ 0x80 ≤ b.toNat ∧ b.toNat ≤ 0xBF) ∨
    (a.toNat = 0xED ∧ 0x80 ≤ b.toNat ∧ b.toNat ≤ 0x9F) ∨
    (0xEE ≤ a.toNat ∧ a.toNat ≤ 0xEF ∧ 0x80 ≤ b.toNat ∧ b.toNat ≤ 0xBF) := by
  simp [second3, UInt8.le_iff_toNat_le, ← UInt8.toNat_inj, and_assoc, or_assoc]

theorem second4_iff (a b : UInt8) : second4 a b = true ↔
    (a.toNat = 0xF0 ∧ 0x90 ≤ b.toNat ∧ b.toNat ≤ 0xBF) ∨
    (0xF1 ≤ a.toNat ∧ a.toNat ≤ 0xF3 ∧ 0x80 ≤ b.toNat ∧ b.toNat ≤ 0xBF) ∨
    (a.toNat = 0xF4 ∧ 0x80 ≤ b.toNat ∧ b.toNat ≤ 0x8F) := by
  simp [second4, UInt8.le_iff_toNat_le, ← UInt8.toNat_inj, and_assoc, or_assoc]

theorem toNat_ofNat {n : Nat} (h : n < 0xD800 ∨ 0xDFFF < n ∧ n < 0x110000) :
    (Char.ofNat n).toNat = n := by
  have hv : n.isValidChar := h
  simp [Char.toNat, Char.ofNat, hv, Char.ofNatAux]

/-- A byte is what a number below 256 says. -/
theorem ofNat_eq {n : Nat} {b : UInt8} (h : n = b.toNat) : UInt8.ofNat n = b := by
  rw [h, UInt8.ofNat_toNat]

theorem encode_two {a b : UInt8} (ha : 0xC2 ≤ a.toNat ∧ a.toNat ≤ 0xDF)
    (hb : isCont b = true) :
    String.utf8EncodeChar (Char.ofNat (a.toNat % 32 * 64 + low6 b)) = [a, b] := by
  rw [isCont_iff] at hb
  have hv : (Char.ofNat (a.toNat % 32 * 64 + low6 b)).val.toNat = a.toNat % 32 * 64 + low6 b :=
    toNat_ofNat (by unfold low6; omega)
  unfold String.utf8EncodeChar
  simp only [hv]
  unfold low6
  rw [if_neg (by omega), if_pos (by omega), ofNat_eq (b := a) (by omega),
    ofNat_eq (b := b) (by omega)]

theorem encode_three {a b c : UInt8} (hab : second3 a b = true) (hc : isCont c = true) :
    String.utf8EncodeChar (Char.ofNat (a.toNat % 16 * 4096 + low6 b * 64 + low6 c))
      = [a, b, c] := by
  rw [second3_iff] at hab
  rw [isCont_iff] at hc
  have hv : (Char.ofNat (a.toNat % 16 * 4096 + low6 b * 64 + low6 c)).val.toNat
      = a.toNat % 16 * 4096 + low6 b * 64 + low6 c :=
    toNat_ofNat (by unfold low6; omega)
  unfold String.utf8EncodeChar
  simp only [hv]
  unfold low6
  rw [if_neg (by omega), if_neg (by omega), if_pos (by omega), ofNat_eq (b := a) (by omega),
    ofNat_eq (b := b) (by omega), ofNat_eq (b := c) (by omega)]

theorem encode_four {a b c d : UInt8} (hab : second4 a b = true) (hc : isCont c = true)
    (hd : isCont d = true) :
    String.utf8EncodeChar
      (Char.ofNat (a.toNat % 8 * 262144 + low6 b * 4096 + low6 c * 64 + low6 d))
      = [a, b, c, d] := by
  rw [second4_iff] at hab
  rw [isCont_iff] at hc hd
  have hv :
      (Char.ofNat (a.toNat % 8 * 262144 + low6 b * 4096 + low6 c * 64 + low6 d)).val.toNat
      = a.toNat % 8 * 262144 + low6 b * 4096 + low6 c * 64 + low6 d :=
    toNat_ofNat (by unfold low6; omega)
  unfold String.utf8EncodeChar
  simp only [hv]
  unfold low6
  rw [if_neg (by omega), if_neg (by omega), if_neg (by omega), ofNat_eq (b := a) (by omega),
    ofNat_eq (b := b) (by omega), ofNat_eq (b := c) (by omega), ofNat_eq (b := d) (by omega)]

theorem encode_one {a : UInt8} (ha : a < 0x80) :
    String.utf8EncodeChar (Char.ofNat a.toNat) = [a] := by
  have ha' : a.toNat < 128 := UInt8.lt_iff_toNat_lt.mp ha
  have hv : (Char.ofNat a.toNat).val.toNat = a.toNat := toNat_ofNat (by omega)
  unfold String.utf8EncodeChar
  simp only [hv]
  rw [if_pos (by omega), UInt8.ofNat_toNat]

/-- The first byte of a sequence. -/
theorem first_cases (a : UInt8) : a < 0x80 ∨ (0xC2 ≤ a.toNat ∧ a.toNat ≤ 0xDF) ∨
    (0xE0 ≤ a.toNat ∧ a.toNat ≤ 0xEF) ∨ (0xF0 ≤ a.toNat ∧ a.toNat ≤ 0xF4) ∨
    (0x80 ≤ a.toNat ∧ (a.toNat < 0xC2 ∨ 0xF4 < a.toNat)) := by
  rw [UInt8.lt_iff_toNat_lt]
  have h : (0x80 : UInt8).toNat = 0x80 := rfl
  omega

/-- The bytes after a first byte: go on with one that may follow, or cut the piece off. -/
def follow (ok : UInt8 → Bool) (k : UInt8 → Bytes → List (Option Char)) :
    Bytes → List (Option Char)
  | b :: t => if ok b then k b t else none :: decode (b :: t)
  | [] => [none]

theorem follow_ok {ok : UInt8 → Bool} {k : UInt8 → Bytes → List (Option Char)} {b : UInt8}
    {t : Bytes} (hb : ok b = true) : follow ok k (b :: t) = k b t := if_pos hb

theorem follow_cut {ok : UInt8 → Bool} {k : UInt8 → Bytes → List (Option Char)} {t : Bytes}
    (ht : ∀ b ∈ t.head?, ok b = false) : follow ok k t = none :: decode t := by
  cases t with
  | nil => simp only [follow, decode]
  | cons b t => exact if_neg (by simp [ht b rfl])

section
variable {a : UInt8} {t : Bytes}

/-- A sequence by its first byte. -/
theorem decode_cons : decode (a :: t) =
    if a < 0x80 then some (Char.ofNat a.toNat) :: decode t
    else if 0xC2 ≤ a && a ≤ 0xDF then
      follow isCont
        (fun b t => some (Char.ofNat (a.toNat % 32 * 64 + low6 b)) :: decode t) t
    else if 0xE0 ≤ a && a ≤ 0xEF then
      follow (second3 a) (fun b => follow isCont fun c t =>
        some (Char.ofNat (a.toNat % 16 * 4096 + low6 b * 64 + low6 c)) :: decode t) t
    else if 0xF0 ≤ a && a ≤ 0xF4 then
      follow (second4 a) (fun b => follow isCont fun c => follow isCont fun d t =>
        some (Char.ofNat (a.toNat % 8 * 262144 + low6 b * 4096 + low6 c * 64 + low6 d)) ::
          decode t) t
    else none :: decode t := by
  rcases t with _ | ⟨b, _ | ⟨c, _ | ⟨d, t⟩⟩⟩ <;> rfl

theorem decode_one (ha : a < 0x80) :
    decode (a :: t) = some (Char.ofNat a.toNat) :: decode t := by
  rw [decode_cons, if_pos ha]

theorem decode_lone (ha : 0x80 ≤ a.toNat ∧ (a.toNat < 0xC2 ∨ 0xF4 < a.toNat)) :
    decode (a :: t) = none :: decode t := by
  rw [decode_cons]
  simp only [UInt8.lt_iff_toNat_lt, UInt8.le_iff_toNat_le, Bool.and_eq_true, decide_eq_true_eq,
    UInt8.reduceToNat]
  rw [if_neg (by omega), if_neg (by omega), if_neg (by omega), if_neg (by omega)]

theorem decode_two (ha : 0xC2 ≤ a.toNat ∧ a.toNat ≤ 0xDF) :
    decode (a :: t) = follow isCont
      (fun b t => some (Char.ofNat (a.toNat % 32 * 64 + low6 b)) :: decode t) t := by
  rw [decode_cons]
  simp only [UInt8.lt_iff_toNat_lt, UInt8.le_iff_toNat_le, Bool.and_eq_true, decide_eq_true_eq,
    UInt8.reduceToNat]
  rw [if_neg (by omega), if_pos (by omega)]

theorem decode_three (ha : 0xE0 ≤ a.toNat ∧ a.toNat ≤ 0xEF) :
    decode (a :: t) = follow (second3 a) (fun b => follow isCont fun c t =>
      some (Char.ofNat (a.toNat % 16 * 4096 + low6 b * 64 + low6 c)) :: decode t) t := by
  rw [decode_cons]
  simp only [UInt8.lt_iff_toNat_lt, UInt8.le_iff_toNat_le, Bool.and_eq_true, decide_eq_true_eq,
    UInt8.reduceToNat]
  rw [if_neg (by omega), if_neg (by omega), if_pos (by omega)]

theorem decode_four (ha : 0xF0 ≤ a.toNat ∧ a.toNat ≤ 0xF4) :
    decode (a :: t) = follow (second4 a)
      (fun b => follow isCont fun c => follow isCont fun d t =>
      some (Char.ofNat (a.toNat % 8 * 262144 + low6 b * 4096 + low6 c * 64 + low6 d)) ::
        decode t) t := by
  rw [decode_cons]
  simp only [UInt8.lt_iff_toNat_lt, UInt8.le_iff_toNat_le, Bool.and_eq_true, decide_eq_true_eq,
    UInt8.reduceToNat]
  rw [if_neg (by omega), if_neg (by omega), if_neg (by omega), if_pos (by omega)]

end

/-- What is encoded is decoded. -/
theorem decode_utf8EncodeChar (c : Char) (t : Bytes) :
    decode (String.utf8EncodeChar c ++ t) = some c :: decode t := by
  have hvalid : c.toNat < 0xD800 ∨ 0xDFFF < c.toNat ∧ c.toNat < 0x110000 := c.valid
  have hc : c.val.toNat = c.toNat := rfl
  have hback : ∀ n, n = c.toNat → Char.ofNat n = c := by
    rintro n rfl
    exact Char.ofNat_toNat c
  unfold String.utf8EncodeChar
  simp only [hc]
  split
  · next h1 =>
      show decode (_ :: t) = _
      have hascii : UInt8.ofNat c.toNat < 0x80 := by
        rw [UInt8.lt_iff_toNat_lt, UInt8.toNat_ofNat']
        show _ < 128
        omega
      rw [decode_one hascii, hback _ (by rw [UInt8.toNat_ofNat']; omega)]
  · split
    · next h1 h2 =>
        show decode (_ :: _ :: t) = _
        rw [decode_two (by rw [UInt8.toNat_ofNat']; omega),
          follow_ok ((isCont_iff _).mpr (by rw [UInt8.toNat_ofNat']; omega)),
          hback _ (by unfold low6; rw [UInt8.toNat_ofNat', UInt8.toNat_ofNat']; omega)]
    · split
      · next h1 h2 h3 =>
          show decode (_ :: _ :: _ :: t) = _
          rw [decode_three (by rw [UInt8.toNat_ofNat']; omega),
            follow_ok ((second3_iff _ _).mpr (by simp only [UInt8.toNat_ofNat']; omega)),
            follow_ok ((isCont_iff _).mpr (by rw [UInt8.toNat_ofNat']; omega)),
            hback _ (by unfold low6; simp only [UInt8.toNat_ofNat']; omega)]
      · next h1 h2 h3 =>
          show decode (_ :: _ :: _ :: _ :: t) = _
          rw [decode_four (by rw [UInt8.toNat_ofNat']; omega),
            follow_ok ((second4_iff _ _).mpr (by simp only [UInt8.toNat_ofNat']; omega)),
            follow_ok ((isCont_iff _).mpr (by rw [UInt8.toNat_ofNat']; omega)),
            follow_ok ((isCont_iff _).mpr (by rw [UInt8.toNat_ofNat']; omega)),
            hback _ (by unfold low6; simp only [UInt8.toNat_ofNat']; omega)]

/-! ### Pieces -/

/-- A piece that is cut off before `s` stays cut off: nothing follows, or an ASCII byte. -/
def Stops (s : Bytes) : Prop := ∀ b ∈ s.head?, b < 0x80

theorem refused_of_ascii {b : UInt8} (hb : b < 0x80) (a : UInt8) :
    isCont b = false ∧ second3 a b = false ∧ second4 a b = false := by
  have hb' : b.toNat < 128 := UInt8.lt_iff_toNat_lt.mp hb
  refine ⟨?_, ?_, ?_⟩ <;> rw [Bool.eq_false_iff, Ne]
  · rw [isCont_iff]
    omega
  · rw [second3_iff]
    omega
  · rw [second4_iff]
    omega

/-- What stops a piece before `s` or inside `x`. -/
theorem cut_append {ok : UInt8 → Bool} {x s : Bytes} (hx : ∀ b ∈ x.head?, ok b = false)
    (hok : ∀ b, b < 0x80 → ok b = false) (hs : Stops s) :
    ∀ b ∈ (x ++ s).head?, ok b = false := by
  cases x with
  | nil => exact fun b hb => hok b (hs b hb)
  | cons a x => exact hx

/-- The first piece: a character as it is encoded, or up to three bytes that make none,
whatever the text goes on with. -/
theorem exists_piece {x : Bytes} (hx : x ≠ []) :
    (∃ c rest, x = String.utf8EncodeChar c ++ rest) ∨
      ∃ p rest, x = p ++ rest ∧ p ≠ [] ∧ p.length ≤ 3 ∧
        ∀ s, Stops s → decode (x ++ s) = none :: decode (rest ++ s) := by
  have hcont := fun b (hb : b < 0x80) => (refused_of_ascii hb b).1
  -- the bytes after the first one, as far as they may follow
  have hfollow : ∀ (ok : UInt8 → Bool) (x : Bytes),
      (∀ b ∈ x.head?, ok b = false) ∨ ∃ b y, x = b :: y ∧ ok b = true := by
    intro ok x
    cases x with
    | nil => exact Or.inl fun b hb => by cases hb
    | cons b y =>
        cases hb : ok b with
        | true => exact Or.inr ⟨b, y, rfl, hb⟩
        | false => exact Or.inl fun b' hb' => by cases hb'; exact hb
  obtain ⟨a, x, rfl⟩ := List.exists_cons_of_ne_nil hx
  rcases first_cases a with ha | ha | ha | ha | ha
  · exact Or.inl ⟨_, x, by rw [encode_one ha]; rfl⟩
  · rcases hfollow isCont x with hcut | ⟨b, x, rfl, hb⟩
    · refine Or.inr ⟨[a], x, rfl, by simp, by simp, fun s hs => ?_⟩
      rw [List.cons_append, decode_two ha, follow_cut (cut_append hcut hcont hs)]
    · exact Or.inl ⟨_, x, by rw [encode_two ha hb]; rfl⟩
  · rcases hfollow (second3 a) x with hcut | ⟨b, x, rfl, hb⟩
    · refine Or.inr ⟨[a], x, rfl, by simp, by simp, fun s hs => ?_⟩
      rw [List.cons_append, decode_three ha,
        follow_cut (cut_append hcut (fun b hb => (refused_of_ascii hb a).2.1) hs)]
    · rcases hfollow isCont x with hcut | ⟨c, x, rfl, hc⟩
      · refine Or.inr ⟨[a, b], x, rfl, by simp, by simp, fun s hs => ?_⟩
        rw [List.cons_append, List.cons_append, decode_three ha, follow_ok hb,
          follow_cut (cut_append hcut hcont hs)]
      · exact Or.inl ⟨_, x, by rw [encode_three hb hc]; rfl⟩
  · rcases hfollow (second4 a) x with hcut | ⟨b, x, rfl, hb⟩
    · refine Or.inr ⟨[a], x, rfl, by simp, by simp, fun s hs => ?_⟩
      rw [List.cons_append, decode_four ha,
        follow_cut (cut_append hcut (fun b hb => (refused_of_ascii hb a).2.2) hs)]
    · rcases hfollow isCont x with hcut | ⟨c, x, rfl, hc⟩
      · refine Or.inr ⟨[a, b], x, rfl, by simp, by simp, fun s hs => ?_⟩
        rw [List.cons_append, List.cons_append, decode_four ha, follow_ok hb,
          follow_cut (cut_append hcut hcont hs)]
      · rcases hfollow isCont x with hcut | ⟨d, x, rfl, hd⟩
        · refine Or.inr ⟨[a, b, c], x, rfl, by simp, by simp, fun s hs => ?_⟩
          rw [List.cons_append, List.cons_append, List.cons_append, decode_four ha,
            follow_ok hb, follow_ok hc, follow_cut (cut_append hcut hcont hs)]
        · exact Or.inl ⟨_, x, by rw [encode_four hb hc hd]; rfl⟩
  · refine Or.inr ⟨[a], x, rfl, by simp, by simp, fun s hs => ?_⟩
    rw [List.cons_append, decode_lone ha]

/-- Induction over bytes by their pieces. -/
theorem piece_induction {motive : Bytes → Prop} (nil : motive [])
    (char : ∀ c rest, motive rest → motive (String.utf8EncodeChar c ++ rest))
    (bad : ∀ p rest, p ≠ [] → p.length ≤ 3 →
      (∀ s, Stops s → decode (p ++ rest ++ s) = none :: decode (rest ++ s)) → motive rest →
      motive (p ++ rest)) : ∀ x, motive x := by
  intro x
  induction hn : x.length using Nat.strong_induction_on generalizing x with
  | _ n ih =>
      subst hn
      by_cases hx : x = []
      · rw [hx]
        exact nil
      · rcases exists_piece hx with ⟨c, rest, rfl⟩ | ⟨p, rest, rfl, hp, hlen, hdecode⟩
        · refine char c rest (ih rest.length ?_ rest rfl)
          rw [List.length_append, String.length_utf8EncodeChar]
          have := c.utf8Size_pos
          omega
        · refine bad p rest hp hlen hdecode (ih rest.length ?_ rest rfl)
          rw [List.length_append]
          have := List.length_pos_iff.mpr hp
          omega

/-! ## Lossy text -/

theorem lossy_char (c : Char) (rest : Bytes) :
    fromUtf8Lossy (String.utf8EncodeChar c ++ rest) = c :: fromUtf8Lossy rest := by
  unfold fromUtf8Lossy
  rw [decode_utf8EncodeChar]
  rfl

theorem lossy_bad {p rest : Bytes} (hdecode : ∀ s, Stops s → decode (p ++ rest ++ s) = none ::
      decode (rest ++ s)) :
    fromUtf8Lossy (p ++ rest) = '\uFFFD' :: fromUtf8Lossy rest := by
  have h := hdecode [] fun b hb => by cases hb
  rw [List.append_nil, List.append_nil] at h
  unfold fromUtf8Lossy
  rw [h]
  rfl

/-- Encoded text is read back. -/
theorem lossy_encode (s : Str) : fromUtf8Lossy (encode s) = s := by
  induction s with
  | nil => rfl
  | cons c s ih =>
      show fromUtf8Lossy (String.utf8EncodeChar c ++ encode s) = _
      rw [lossy_char, ih]

/-- Text is cut at an ASCII byte. -/
theorem lossy_append_ascii {a : UInt8} (ha : a < 0x80) (x rest : Bytes) :
    fromUtf8Lossy (x ++ a :: rest) = fromUtf8Lossy x ++ Char.ofNat a.toNat ::
      fromUtf8Lossy rest := by
  induction x using piece_induction with
  | nil =>
      unfold fromUtf8Lossy
      rw [List.nil_append, decode_one ha]
      rfl
  | char c x ih => rw [List.append_assoc, lossy_char, lossy_char, ih]; rfl
  | bad p x hp hlen hdecode ih =>
      rw [lossy_bad hdecode, List.cons_append, ← ih]
      unfold fromUtf8Lossy
      rw [hdecode (a :: rest) fun b hb => by cases hb; exact ha]
      rfl

/-- Each ASCII character of lossy text is a byte. -/
theorem mem_of_mem_lossy {x : Bytes} {c : Char} (hc : c.toNat < 128)
    (h : c ∈ fromUtf8Lossy x) :
    UInt8.ofNat c.toNat ∈ x := by
  induction x using piece_induction with
  | nil => cases h
  | char d x ih =>
      rw [lossy_char] at h
      rcases List.mem_cons.mp h with rfl | h
      · refine List.mem_append_left _ ?_
        have hone := encode_singleton_ascii hc
        rw [show encode [c] = String.utf8EncodeChar c from List.append_nil _] at hone
        rw [hone]
        exact List.mem_singleton_self _
      · exact List.mem_append_right _ (ih h)
  | bad p x hp hlen hdecode ih =>
      rw [lossy_bad hdecode] at h
      rcases List.mem_cons.mp h with rfl | h
      · exact absurd hc (by decide)
      · exact List.mem_append_right _ (ih h)

/-- Reading lossily and writing again does not shorten. -/
theorem length_le_encode_lossy (x : Bytes) : x.length ≤ (encode (fromUtf8Lossy x)).length := by
  induction x using piece_induction with
  | nil => exact Nat.zero_le _
  | char c x ih =>
      rw [lossy_char]
      show _ ≤ (String.utf8EncodeChar c ++ encode (fromUtf8Lossy x)).length
      rw [List.length_append, List.length_append]
      omega
  | bad p x hp hlen hdecode ih =>
      rw [lossy_bad hdecode]
      show _ ≤ (String.utf8EncodeChar '\uFFFD' ++ encode (fromUtf8Lossy x)).length
      have hthree : (String.utf8EncodeChar '\uFFFD').length = 3 := by decide
      rw [List.length_append, List.length_append]
      omega

/-- Text without a replacement character is all there. -/
theorem encode_lossy_of_not_mem {x : Bytes} (h : '\uFFFD' ∉ fromUtf8Lossy x) :
    encode (fromUtf8Lossy x) = x := by
  induction x using piece_induction with
  | nil => rfl
  | char c x ih =>
      rw [lossy_char] at h ⊢
      show String.utf8EncodeChar c ++ encode (fromUtf8Lossy x) = _
      rw [ih fun hm => h (List.mem_cons_of_mem _ hm)]
  | bad p x hp hlen hdecode ih =>
      rw [lossy_bad hdecode] at h
      exact absurd List.mem_cons_self h

/-- Bytes are text if they are the encoding of it. -/
theorem fromUtf8_eq_some {x : Bytes} {s : Str} : fromUtf8 x = some s ↔ x = encode s := by
  induction x using piece_induction generalizing s with
  | nil =>
      constructor
      · intro h
        cases h
        rfl
      · intro h
        cases s with
        | nil => rfl
        | cons c s =>
            exact absurd (List.append_eq_nil_iff.mp h.symm).1 String.utf8EncodeChar_ne_nil
  | char c x ih =>
      have hcons : fromUtf8 (String.utf8EncodeChar c ++ x) = (fromUtf8 x).map (c :: ·) := by
        unfold fromUtf8
        rw [decode_utf8EncodeChar, List.mapM_cons]
        cases (decode x).mapM id <;> rfl
      rw [hcons, Option.map_eq_some_iff]
      constructor
      · rintro ⟨s', hs', rfl⟩
        rw [ih.mp hs']
        rfl
      · intro h
        have hread := congrArg fromUtf8Lossy h
        rw [lossy_char, lossy_encode] at hread
        subst hread
        exact ⟨_, ih.mpr (List.append_cancel_left h), rfl⟩
  | bad p x hp hlen hdecode ih =>
      have hnone : fromUtf8 (p ++ x) = none := by
        have h := hdecode [] fun b hb => by cases hb
        rw [List.append_nil, List.append_nil] at h
        unfold fromUtf8
        rw [h, List.mapM_cons]
        rfl
      rw [hnone]
      refine ⟨fun h => (nomatch h), fun h => ?_⟩
      -- text that is encoded has no piece that is cut off
      have hdec := hdecode [] fun b hb => by cases hb
      rw [List.append_nil, List.append_nil, h] at hdec
      cases s with
      | nil => cases hdec
      | cons c s => cases (decode_utf8EncodeChar c (encode s)).symm.trans hdec

/-- Lossy text written again is the same exactly if the bytes are text. -/
theorem encode_lossy_iff {x : Bytes} : encode (fromUtf8Lossy x) = x ↔
    (fromUtf8 x).isSome = true := by
  rw [Option.isSome_iff_exists]
  constructor
  · exact fun h => ⟨_, fromUtf8_eq_some.mpr h.symm⟩
  · rintro ⟨s, hs⟩
    rw [fromUtf8_eq_some.mp hs, lossy_encode]

end Utf8
