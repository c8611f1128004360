import LivePatch.Text.Utf8
import Mathlib.Data.List.Basic

/-!
# Decoding what was encoded

The decoder and the encoder of UTF-8 are inverse to each other: octets are read as a text exactly if
they are what that text is encoded to. So parts of a text are found at the octets that they take.
-/

namespace LivePatch.Text.Utf8

/-- Octets of a text, character by character. -/
abbrev octets (text : List Char) : List UInt8 := text.flatMap String.utf8EncodeChar

theorem octets_append (a b : List Char) : octets (a ++ b) = octets a ++ octets b :=
  List.flatMap_append

theorem octets_replicate_space (n : Nat) : octets (List.replicate n ' ') = List.replicate n 0x20 := by
  induction n with
  | zero => rfl
  | succ n ih => rw [List.replicate_succ, octets, List.flatMap_cons, ← octets, ih]; rfl

@[simp] theorem encode_ofList (text : List Char) :
    encode (String.ofList text) = (octets text).toArray := by
  simp [encode, String.toUTF8, String.toByteArray_ofList, List.utf8Encode]

@[simp] theorem size_ofList (text : List Char) :
    size (String.ofList text) = (octets text).length := by
  rw [size, ← String.size_toByteArray, String.toByteArray_ofList, List.utf8Encode,
    List.size_toByteArray]

/-! ### Octets of one character -/

theorem start_of_lt {b : UInt8} (h : b.toNat < 0x80) : start b = .whole (Char.ofNat b.toNat) := by
  simp [start, h]

theorem start_two {b : UInt8} (hlo : 0xc2 ≤ b.toNat) (hhi : b.toNat ≤ 0xdf) :
    start b = .more ⟨b.toNat - 0xc0, 1, 0x80, 0xbf⟩ := by
  simp [start, hlo, hhi, show ¬b.toNat < 0x80 by omega]

/-- What the first of three octets leaves to be read. -/
theorem start_three {b : UInt8} (hlo : 0xe0 ≤ b.toNat) (hhi : b.toNat ≤ 0xef) :
    start b = .more ⟨b.toNat - 0xe0, 2, if b.toNat = 0xe0 then 0xa0 else 0x80,
      if b.toNat = 0xed then 0x9f else 0xbf⟩ := by
  unfold start
  have hge : ¬b.toNat < 0x80 := by omega
  have hpast : ¬b.toNat ≤ 0xdf := by omega
  by_cases hfirst : b.toNat = 0xe0
  · simp [hfirst]
  · by_cases hsurrogate : b.toNat = 0xed
    · simp [hsurrogate]
    · simp [hge, hpast, hfirst, hsurrogate, hhi, show 0xe1 ≤ b.toNat by omega]

/-- What the first of four octets leaves to be read. -/
theorem start_four {b : UInt8} (hlo : 0xf0 ≤ b.toNat) (hhi : b.toNat ≤ 0xf4) :
    start b = .more ⟨b.toNat - 0xf0, 3, if b.toNat = 0xf0 then 0x90 else 0x80,
      if b.toNat = 0xf4 then 0x8f else 0xbf⟩ := by
  unfold start
  have hge : ¬b.toNat < 0x80 := by omega
  have hpast : ¬b.toNat ≤ 0xdf := by omega
  have hthree : ¬b.toNat ≤ 0xef := by omega
  by_cases hfirst : b.toNat = 0xf0
  · simp [hfirst]
  · by_cases hlast : b.toNat = 0xf4
    · simp [hlast]
    · simp [hge, hpast, hthree, hfirst, hlast, show 0xf1 ≤ b.toNat by omega,
        show b.toNat ≤ 0xf3 by omega, show b.toNat ≠ 0xe0 by omega, show b.toNat ≠ 0xed by omega]

/-- All other octets start nothing. -/
theorem start_broken {b : UInt8} (hge : 0x80 ≤ b.toNat)
    (hout : b.toNat < 0xc2 ∨ 0xf4 < b.toNat) : start b = .broken := by
  unfold start
  have hge : ¬b.toNat < 0x80 := by omega
  rcases hout with hlt | hgt
  · simp [hge, show ¬0xc2 ≤ b.toNat by omega, show ¬0xe1 ≤ b.toNat by omega,
      show ¬0xf1 ≤ b.toNat by omega, show b.toNat ≠ 0xe0 by omega, show b.toNat ≠ 0xed by omega,
      show b.toNat ≠ 0xf0 by omega, show b.toNat ≠ 0xf4 by omega]
  · simp [hge, show ¬b.toNat ≤ 0xdf by omega, show ¬b.toNat ≤ 0xef by omega,
      show ¬b.toNat ≤ 0xf3 by omega, show b.toNat ≠ 0xe0 by omega, show b.toNat ≠ 0xed by omega,
      show b.toNat ≠ 0xf0 by omega, show b.toNat ≠ 0xf4 by omega]

/-- The first octet of a character of several. -/
theorem decode_more {b : UInt8} {p : Pending} (rest : List UInt8) (h : start b = .more p) :
    decode none (b :: rest) = decode (some p) rest := by
  simp [decode, h]

/-- The last octet of a character. -/
theorem decode_last {p : Pending} {b : UInt8} (rest : List UInt8) (hlo : p.low ≤ b)
    (hhi : b ≤ p.high) (hlast : p.owed ≤ 1) :
    decode (some p) (b :: rest)
      = some (Char.ofNat (p.code * 64 + (b.toNat - 0x80))) :: decode none rest := by
  simp [decode, hlo, hhi, hlast]

/-- An octet that is not the last one of its character. -/
theorem decode_next {p : Pending} {b : UInt8} (rest : List UInt8) (hlo : p.low ≤ b)
    (hhi : b ≤ p.high) (hmore : 1 < p.owed) :
    decode (some p) (b :: rest)
      = decode (some ⟨p.code * 64 + (b.toNat - 0x80), p.owed - 1, 0x80, 0xbf⟩) rest := by
  simp [decode, hlo, hhi, Nat.not_le.mpr hmore]

/-- A text that goes on behind an octet that was owed took that octet. -/
theorem of_decode_pending {p : Pending} {bytes : List UInt8} {text : List Char}
    (h : decode (some p) bytes = text.map some) :
    ∃ b rest, bytes = b :: rest ∧ p.low ≤ b ∧ b ≤ p.high := by
  cases bytes with
  | nil => cases text <;> simp [decode] at h
  | cons b rest =>
    refine ⟨b, rest, rfl, ?_⟩
    by_contra hout
    have hbroken : (p.low ≤ b && b ≤ p.high) = false := by
      rw [Bool.and_eq_false_iff]
      simp only [decide_eq_false_iff_not]
      tauto
    rw [decode, hbroken] at h
    cases text <;> simp at h

/-- The code point of a character, as the encoder takes it. -/
theorem code_ofNat {n : Nat} (h : n.isValidChar) : (Char.ofNat n).val.toNat = n := by
  rw [Char.ofNat, dif_pos h]
  exact UInt32.toNat_ofNatLT ..

/-- Octets below their number. -/
theorem ofNat_mem {n : Nat} (low high : UInt8) (hlo : low.toNat ≤ n) (hhi : n ≤ high.toNat) :
    low ≤ UInt8.ofNat n ∧ UInt8.ofNat n ≤ high ∧ (UInt8.ofNat n).toNat = n := by
  have hlt := high.toNat_lt
  have hn : (UInt8.ofNat n).toNat = n := by rw [UInt8.toNat_ofNat', Nat.mod_eq_of_lt (by omega)]
  rw [UInt8.le_iff_toNat_le, UInt8.le_iff_toNat_le, hn]
  exact ⟨hlo, hhi, rfl⟩

/-- A character is read from the octets that it is encoded to, whatever follows them. -/
theorem decode_utf8EncodeChar (c : Char) (rest : List UInt8) :
    decode none (String.utf8EncodeChar c ++ rest) = some c :: decode none rest := by
  have hvalid : c.val.toNat < 0xd800 ∨ 0xdfff < c.val.toNat ∧ c.val.toNat < 0x110000 := c.valid
  have hself : Char.ofNat c.val.toNat = c := Char.ofNat_toNat c
  unfold String.utf8EncodeChar
  dsimp only
  generalize c.val.toNat = v at hvalid hself
  have htail : ∀ n, (0x80 : UInt8) ≤ UInt8.ofNat (n % 64 + 128) ∧
      UInt8.ofNat (n % 64 + 128) ≤ 0xbf ∧ (UInt8.ofNat (n % 64 + 128)).toNat = n % 64 + 128 :=
    fun n ↦ ofNat_mem _ _ (Nat.le_add_left ..) (show n % 64 + 128 ≤ 0xbf by omega)
  obtain ⟨hlo, hhi, hlast⟩ := htail v
  split
  · next hone =>
    obtain ⟨-, -, hb⟩ := ofNat_mem 0 0x7f (Nat.zero_le v) hone
    simp [decode, start_of_lt (b := UInt8.ofNat v) (by omega), hb, hself]
  · split
    · next hone htwo =>
      obtain ⟨-, -, hfirst⟩ := ofNat_mem 0xc2 0xdf
        (show 0xc2 ≤ v / 64 % 32 + 192 by omega) (show v / 64 % 32 + 192 ≤ 0xdf by omega)
      rw [List.cons_append, decode_more _ (start_two (by omega) (by omega)), List.cons_append,
        decode_last _ hlo hhi (Nat.le_refl 1), hfirst, hlast]
      rw [show (v / 64 % 32 + 192 - 0xc0) * 64 + (v % 64 + 128 - 0x80) = v by omega, hself]
      rfl
    · split
      · next hone htwo hthree =>
        obtain ⟨hlo', hhi', hnext⟩ := htail (v / 64)
        obtain ⟨-, -, hfirst⟩ := ofNat_mem 0xe0 0xef
          (show 0xe0 ≤ v / 4096 % 16 + 224 by omega) (show v / 4096 % 16 + 224 ≤ 0xef by omega)
        rw [List.cons_append, decode_more _ (start_three (by omega) (by omega)), List.cons_append,
          decode_next, List.cons_append, decode_last _ hlo hhi (Nat.le_refl 1), hfirst, hnext, hlast]
        · rw [show ((v / 4096 % 16 + 224 - 0xe0) * 64 + (v / 64 % 64 + 128 - 0x80)) * 64
            + (v % 64 + 128 - 0x80) = v by omega, hself]
          rfl
        · rw [UInt8.le_iff_toNat_le, hnext, hfirst]
          split
          · exact show 0xa0 ≤ v / 64 % 64 + 128 by omega
          · exact show 0x80 ≤ v / 64 % 64 + 128 by omega
        · rw [UInt8.le_iff_toNat_le, hnext, hfirst]
          dsimp only
          split
          · exact show v / 64 % 64 + 128 ≤ 0x9f by omega
          · exact show v / 64 % 64 + 128 ≤ 0xbf by omega
        · exact Nat.lt_succ_self 1
      · next hone htwo hthree =>
        obtain ⟨hlo', hhi', hthird⟩ := htail (v / 64)
        obtain ⟨hlo'', hhi'', hnext⟩ := htail (v / 4096)
        obtain ⟨-, -, hfirst⟩ := ofNat_mem 0xf0 0xf4
          (show 0xf0 ≤ v / 262144 % 8 + 240 by omega) (show v / 262144 % 8 + 240 ≤ 0xf4 by omega)
        rw [List.cons_append, decode_more _ (start_four (by omega) (by omega)), List.cons_append,
          decode_next, List.cons_append, decode_next _ hlo' hhi' (show 1 < 2 by decide), List.cons_append,
          decode_last _ hlo hhi (Nat.le_refl 1), hfirst, hnext, hthird, hlast]
        · rw [show (((v / 262144 % 8 + 240 - 0xf0) * 64 + (v / 4096 % 64 + 128 - 0x80)) * 64
            + (v / 64 % 64 + 128 - 0x80)) * 64 + (v % 64 + 128 - 0x80) = v by omega, hself]
          rfl
        · rw [UInt8.le_iff_toNat_le, hnext, hfirst]
          split
          · exact show 0x90 ≤ v / 4096 % 64 + 128 by omega
          · exact show 0x80 ≤ v / 4096 % 64 + 128 by omega
        · rw [UInt8.le_iff_toNat_le, hnext, hfirst]
          dsimp only
          split
          · exact show v / 4096 % 64 + 128 ≤ 0x8f by omega
          · exact show v / 4096 % 64 + 128 ≤ 0xbf by omega
        · exact show 1 < 3 by decide

/-! ### Characters of their octets -/

theorem encode_one {x : UInt8} (hx : x.toNat < 0x80) :
    String.utf8EncodeChar (Char.ofNat x.toNat) = [x] := by
  unfold String.utf8EncodeChar
  rw [code_ofNat (Or.inl (by omega))]
  simp [show x.toNat ≤ 127 by omega]

theorem encode_two {x y : UInt8} (hx : 0xc2 ≤ x.toNat ∧ x.toNat ≤ 0xdf)
    (hy : 0x80 ≤ y.toNat ∧ y.toNat ≤ 0xbf) :
    String.utf8EncodeChar (Char.ofNat ((x.toNat - 0xc0) * 64 + (y.toNat - 0x80))) = [x, y] := by
  unfold String.utf8EncodeChar
  rw [code_ofNat (Or.inl (by omega))]
  dsimp only
  rw [if_neg (by omega), if_pos (by omega)]
  simp only [List.cons.injEq, and_true, ← UInt8.toNat_inj, UInt8.toNat_ofNat']
  omega

theorem encode_three {x y z : UInt8} (hx : 0xe0 ≤ x.toNat ∧ x.toNat ≤ 0xef)
    (hy : 0x80 ≤ y.toNat ∧ y.toNat ≤ 0xbf) (hz : 0x80 ≤ z.toNat ∧ z.toNat ≤ 0xbf)
    (hfirst : x.toNat = 0xe0 → 0xa0 ≤ y.toNat) (hsurrogate : x.toNat = 0xed → y.toNat ≤ 0x9f) :
    String.utf8EncodeChar (Char.ofNat
      (((x.toNat - 0xe0) * 64 + (y.toNat - 0x80)) * 64 + (z.toNat - 0x80))) = [x, y, z] := by
  have hvalid : (((x.toNat - 0xe0) * 64 + (y.toNat - 0x80)) * 64
      + (z.toNat - 0x80)).isValidChar := by
    rw [Nat.isValidChar]
    omega
  unfold String.utf8EncodeChar
  rw [code_ofNat hvalid]
  dsimp only
  rw [if_neg (by omega), if_neg (by omega), if_pos (by omega)]
  simp only [List.cons.injEq, and_true, ← UInt8.toNat_inj, UInt8.toNat_ofNat']
  omega

theorem encode_four {x y z w : UInt8} (hx : 0xf0 ≤ x.toNat ∧ x.toNat ≤ 0xf4)
    (hy : 0x80 ≤ y.toNat ∧ y.toNat ≤ 0xbf) (hz : 0x80 ≤ z.toNat ∧ z.toNat ≤ 0xbf)
    (hw : 0x80 ≤ w.toNat ∧ w.toNat ≤ 0xbf) (hfirst : x.toNat = 0xf0 → 0x90 ≤ y.toNat)
    (hend : x.toNat = 0xf4 → y.toNat ≤ 0x8f) :
    String.utf8EncodeChar (Char.ofNat ((((x.toNat - 0xf0) * 64 + (y.toNat - 0x80)) * 64
      + (z.toNat - 0x80)) * 64 + (w.toNat - 0x80))) = [x, y, z, w] := by
  have hvalid : ((((x.toNat - 0xf0) * 64 + (y.toNat - 0x80)) * 64 + (z.toNat - 0x80)) * 64
      + (w.toNat - 0x80)).isValidChar := by
    rw [Nat.isValidChar]
    omega
  unfold String.utf8EncodeChar
  rw [code_ofNat hvalid]
  dsimp only
  rw [if_neg (by omega), if_neg (by omega), if_neg (by omega)]
  simp only [List.cons.injEq, and_true, ← UInt8.toNat_inj, UInt8.toNat_ofNat']
  omega

/-- An octet above a bound that depends on another one. -/
theorem le_of_ite {p : Prop} [Decidable p] {a b y : UInt8} (hab : b ≤ a)
    (h : (if p then a else b) ≤ y) : b.toNat ≤ y.toNat ∧ (p → a.toNat ≤ y.toNat) := by
  split at h
  · exact ⟨Nat.le_trans hab h, fun _ ↦ h⟩
  · exact ⟨h, fun hp ↦ absurd hp ‹_›⟩

/-- An octet below a bound that depends on another one. -/
theorem ge_of_ite {p : Prop} [Decidable p] {a b y : UInt8} (hab : a ≤ b)
    (h : y ≤ if p then a else b) : y.toNat ≤ b.toNat ∧ (p → y.toNat ≤ a.toNat) := by
  split at h
  · exact ⟨Nat.le_trans h hab, fun _ ↦ h⟩
  · exact ⟨h, fun hp ↦ absurd hp ‹_›⟩

/-- Octets that a character is read from are those that it is encoded to. -/
theorem eq_append_of_decode {bytes : List UInt8} {c : Char} {text : List Char}
    (h : decode none bytes = (c :: text).map some) :
    ∃ rest, bytes = String.utf8EncodeChar c ++ rest ∧ decode none rest = text.map some := by
  cases bytes with
  | nil => simp [decode] at h
  | cons x bytes =>
    have hx := x.toNat_lt
    rcases Nat.lt_or_ge x.toNat 0x80 with hone | hmany
    · simp only [decode, start_of_lt hone, List.map_cons, List.cons.injEq, Option.some.injEq] at h
      obtain ⟨rfl, hrest⟩ := h
      exact ⟨bytes, by rw [encode_one hone]; rfl, hrest⟩
    · by_cases hout : x.toNat < 0xc2 ∨ 0xf4 < x.toNat
      · simp [decode, start_broken hmany hout] at h
      · rcases Nat.lt_or_ge x.toNat 0xe0 with htwo | hge
        · rw [decode_more _ (start_two (by omega) (by omega))] at h
          obtain ⟨y, rest, rfl, hlo, hhi⟩ := of_decode_pending h
          rw [decode_last _ hlo hhi (Nat.le_refl 1)] at h
          simp only [List.map_cons, List.cons.injEq, Option.some.injEq] at h
          obtain ⟨rfl, hrest⟩ := h
          exact ⟨rest, by rw [encode_two (by omega) ⟨hlo, hhi⟩]; rfl, hrest⟩
        · rcases Nat.lt_or_ge x.toNat 0xf0 with hthree | hfour
          · rw [decode_more _ (start_three (by omega) (by omega))] at h
            obtain ⟨y, rest, rfl, hlo, hhi⟩ := of_decode_pending h
            rw [decode_next _ hlo hhi (show 1 < 2 by decide)] at h
            obtain ⟨z, rest, rfl, hlo', hhi'⟩ := of_decode_pending h
            rw [decode_last _ hlo' hhi' (Nat.le_refl 1)] at h
            simp only [List.map_cons, List.cons.injEq, Option.some.injEq] at h
            obtain ⟨rfl, hrest⟩ := h
            obtain ⟨hleast, hfirst⟩ := le_of_ite (by decide) hlo
            obtain ⟨hmost, hsurrogate⟩ := ge_of_ite (by decide) hhi
            refine ⟨rest, ?_, hrest⟩
            rw [encode_three (by omega) ⟨hleast, hmost⟩ ⟨hlo', hhi'⟩ hfirst hsurrogate]
            rfl
          · rw [decode_more _ (start_four (by omega) (by omega))] at h
            obtain ⟨y, rest, rfl, hlo, hhi⟩ := of_decode_pending h
            rw [decode_next _ hlo hhi (show 1 < 3 by decide)] at h
            obtain ⟨z, rest, rfl, hlo', hhi'⟩ := of_decode_pending h
            rw [decode_next _ hlo' hhi' (show 1 < 2 by decide)] at h
            obtain ⟨w, rest, rfl, hlo'', hhi''⟩ := of_decode_pending h
            rw [decode_last _ hlo'' hhi'' (Nat.le_refl 1)] at h
            simp only [List.map_cons, List.cons.injEq, Option.some.injEq] at h
            obtain ⟨rfl, hrest⟩ := h
            obtain ⟨hleast, hfirst⟩ := le_of_ite (by decide) hlo
            obtain ⟨hmost, hend⟩ := ge_of_ite (by decide) hhi
            refine ⟨rest, ?_, hrest⟩
            rw [encode_four (by omega) ⟨hleast, hmost⟩ ⟨hlo', hhi'⟩ ⟨hlo'', hhi''⟩ hfirst hend]
            rfl

/-! ### Whole texts -/

theorem decode_octets (text : List Char) : decode none (octets text) = text.map some := by
  induction text with
  | nil => rfl
  | cons c text ih => simp [decode_utf8EncodeChar, ih]

/-- A character that has begun is read or reported. -/
theorem decode_pending_ne_nil (p : Pending) (bytes : List UInt8) : decode (some p) bytes ≠ [] := by
  induction bytes generalizing p with
  | nil => simp [decode]
  | cons b rest ih =>
    rw [decode]
    dsimp only
    split
    · split
      · exact List.cons_ne_nil _ _
      · exact ih _
    · exact List.cons_ne_nil _ _

/-- Exactly the octets of a text are read as that text with nothing broken in it. -/
theorem decode_eq_map_iff {bytes : List UInt8} {text : List Char} :
    decode none bytes = text.map some ↔ bytes = octets text := by
  refine ⟨fun h ↦ ?_, fun h ↦ by rw [h, decode_octets]⟩
  induction text generalizing bytes with
  | nil =>
    cases bytes with
    | nil => rfl
    | cons b rest =>
      rw [decode] at h
      cases hstart : start b with
      | whole c => simp [hstart] at h
      | more p => exact absurd (by simpa [hstart] using h) (decode_pending_ne_nil p rest)
      | broken => simp [hstart] at h
  | cons c text ih =>
    obtain ⟨rest, rfl, hrest⟩ := eq_append_of_decode h
    rw [ih hrest, octets, octets, List.flatMap_cons]

theorem mapM_id_eq_some_iff {parts : List (Option Char)} {text : List Char} :
    parts.mapM id = some text ↔ parts = text.map some := by
  induction parts generalizing text with
  | nil => cases text <;> simp
  | cons part parts ih =>
    rw [List.mapM_cons]
    cases text <;> cases part <;> cases hparts : parts.mapM id <;> simp [← ih, hparts]

theorem strict?_eq_some_iff {bytes : List UInt8} {text : List Char} :
    strict? bytes = some text ↔ bytes = octets text := by
  rw [strict?, mapM_id_eq_some_iff, decode_eq_map_iff]

/-- A text that is there is also what the octets are read as with broken parts replaced. -/
theorem lossy_octets (text : List Char) : lossy (octets text) = text := by
  simp [lossy, decode_octets, Function.comp_def]

end LivePatch.Text.Utf8
