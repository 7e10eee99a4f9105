import Conductor.Text.Utf8.Whole
import Mathlib.Data.List.Forall2
import Mathlib.Tactic.SplitIfs

/-!
The byte-by-byte reader against the reader of a whole text. Feeding is a homomorphism, so the cuts
between pieces do not matter; and what it gives, once the input has ended, is the text that decoding
in one piece gives, also where bytes are no characters. Decoding undoes encoding, and the reader
that refuses faults finds none in an encoded text, and one in everything else.
-/

namespace Conductor.Utf8

theorem feed_append (state : State) (first second : List UInt8) :
    feed state (first ++ second) =
      ((feed (feed state first).1 second).1,
        (feed state first).2 ++ (feed (feed state first).1 second).2) := by
  induction first generalizing state with
  | nil => simp [feed]
  | cons byte rest ih => simp [feed, ih]

/-- All that the reader makes of the bytes when the input ends after them. -/
def read (state : State) (bytes : List UInt8) : List Char :=
  (feed state bytes).2 ++ finish (feed state bytes).1

@[simp]
theorem read_nil (state : State) : read state [] = finish state := by
  simp [read, feed]

theorem read_cons (state : State) (byte : UInt8) (rest : List UInt8) :
    read state (byte :: rest) = (step state byte).2 ++ read (step state byte).1 rest := by
  simp [read, feed]

/-- Where reading starts again, the faults come first and then what the bytes give by themselves. -/
theorem read_of_afresh (state : State) (faults : Nat) (byte : UInt8) (rest : List UInt8)
    (hafresh : step state byte = afresh faults byte.toNat) :
    read state (byte :: rest) =
      List.replicate faults replacement ++ read .start (byte :: rest) := by
  rw [read_cons, hafresh]
  unfold afresh
  cases hfirst : first? byte.toNat with
  | none => simp [read_cons, step, accept?, hfirst, List.replicate_succ']
  | some known => simp [read_cons, step, accept?, hfirst]

/-- The bits of a character after further bytes, of which each gives six. -/
def joined (bits : Nat) (tail : List UInt8) : Nat :=
  tail.foldl (fun bits byte => bits * 64 + (byte.toNat - 0x80)) bits

theorem joined_nil (bits : Nat) : joined bits [] = bits := by
  rw [joined, List.foldl_nil]

theorem joined_cons (bits : Nat) (byte : UInt8) (tail : List UInt8) :
    joined bits (byte :: tail) = joined (bits * 64 + (byte.toNat - 0x80)) tail := by
  rw [joined, joined, List.foldl_cons]

/-- What the rest of the input gives after a first byte: a character if all the bytes it needs are
there, and otherwise one fault for those that fit. -/
def readAfter (bits : Nat) (ranges : List (Nat × Nat)) (rest : List UInt8) : List Char :=
  (if fitting ranges rest = ranges.length then
    Char.ofNat (joined bits (rest.take (fitting ranges rest)))
   else replacement) :: read .start (rest.drop (fitting ranges rest))

theorem readAfter_complete (bits : Nat) (rest : List UInt8) :
    readAfter bits [] rest = Char.ofNat bits :: read .start rest := by
  have hnone : fitting [] rest = 0 := by simp [fitting]
  simp only [readAfter, hnone, List.length_nil, if_true, List.take_zero, List.drop_zero]
  rfl

theorem readAfter_nil (bits : Nat) (range : Nat × Nat) (ranges : List (Nat × Nat)) :
    readAfter bits (range :: ranges) [] = [replacement] := by
  simp [readAfter, fitting, finish]

theorem readAfter_of_unfit (bits : Nat) (range : Nat × Nat) (ranges : List (Nat × Nat))
    (byte : UInt8) (rest : List UInt8)
    (hunfit : ¬(range.1 ≤ byte.toNat ∧ byte.toNat ≤ range.2)) :
    readAfter bits (range :: ranges) (byte :: rest) =
      replacement :: read .start (byte :: rest) := by
  simp [readAfter, fitting, hunfit]

theorem readAfter_of_fit (bits : Nat) (range : Nat × Nat) (ranges : List (Nat × Nat))
    (byte : UInt8) (rest : List UInt8)
    (hfit : range.1 ≤ byte.toNat ∧ byte.toNat ≤ range.2) :
    readAfter bits (range :: ranges) (byte :: rest) =
      readAfter (bits * 64 + (byte.toNat - 0x80)) ranges rest := by
  simp [readAfter, fitting, hfit, joined]

/-- The ranges of the bytes that a reader inside a character still waits for. -/
def openRanges (missing low high : Nat) : List (Nat × Nat) :=
  (low, high) :: List.replicate missing (0x80, 0xbf)

theorem read_inside (bits missing low high : Nat) (rest : List UInt8) :
    read (.inside bits (missing + 1) low high) rest =
      readAfter bits (openRanges missing low high) rest := by
  induction missing generalizing bits low high rest with
  | zero =>
      cases rest with
      | nil => simp [openRanges, readAfter_nil, finish]
      | cons byte rest =>
          by_cases hfit : low ≤ byte.toNat ∧ byte.toNat ≤ high
          · rw [openRanges, readAfter_of_fit _ _ _ _ _ hfit]
            simp [read_cons, step, accept?, hfit, further, readAfter, fitting, joined]
          · rw [openRanges, readAfter_of_unfit _ _ _ _ _ hfit]
            exact read_of_afresh _ 1 byte rest (by simp [step, accept?, hfit])
  | succ missing ih =>
      cases rest with
      | nil => simp [openRanges, readAfter_nil, finish]
      | cons byte rest =>
          by_cases hfit : low ≤ byte.toNat ∧ byte.toNat ≤ high
          · rw [openRanges, readAfter_of_fit _ _ _ _ _ hfit]
            have hnext := ih (bits * 64 + (byte.toNat - 0x80)) 0x80 0xbf rest
            simpa [read_cons, step, accept?, hfit, further, openRanges,
              List.replicate_succ] using hnext
          · rw [openRanges, readAfter_of_unfit _ _ _ _ _ hfit]
            exact read_of_afresh _ 1 byte rest (by simp [step, accept?, hfit])

/-- The first two bytes of an encoded surrogate are two faults, also when they are held back. -/
theorem read_surrogate (rest : List UInt8) :
    read .surrogate rest = replacement :: replacement :: read .start rest := by
  cases rest with
  | nil => simp [finish]
  | cons byte rest => exact read_of_afresh _ 2 byte rest (by simp [step, accept?])

/-- A byte that only stands inside characters is a fault where one should start. -/
theorem read_start_of_inner (byte : UInt8) (rest : List UInt8)
    (hinner : 0x80 ≤ byte.toNat ∧ byte.toNat < 0xc2) :
    read .start (byte :: rest) = replacement :: read .start rest := by
  have hnone : first? byte.toNat = none := by
    unfold first?
    rw [if_neg (by omega), if_pos hinner.2]
  simp [read_cons, step, accept?, hnone]

theorem read_afterED (rest : List UInt8) :
    read .afterED rest = readAfter 0xd [(0x80, 0x9f), (0x80, 0xbf)] rest := by
  cases rest with
  | nil => simp [readAfter_nil, finish]
  | cons byte rest =>
      by_cases hfit : 0x80 ≤ byte.toNat ∧ byte.toNat ≤ 0x9f
      · rw [readAfter_of_fit _ _ _ _ _ hfit]
        have hnext := read_inside (0xd * 64 + (byte.toNat - 0x80)) 0 0x80 0xbf rest
        simpa [read_cons, step, accept?, hfit, further, openRanges] using hnext
      · rw [readAfter_of_unfit _ _ _ _ _ hfit]
        -- The second byte of a surrogate is held back together with the first.
        by_cases hsurrogate : 0xa0 ≤ byte.toNat ∧ byte.toNat ≤ 0xbf
        · rw [read_start_of_inner byte rest (by omega)]
          simp [read_cons, step, accept?, hfit, hsurrogate, read_surrogate]
        · exact read_of_afresh _ 1 byte rest (by simp [step, accept?, hfit, hsurrogate])

/-- The first byte of a character decides which bytes may follow it. -/
theorem read_start_cons (byte : UInt8) (rest : List UInt8) :
    read .start (byte :: rest) =
      match tailRanges? byte.toNat with
      | none => replacement :: read .start rest
      | some ranges => readAfter (leadBits byte.toNat ranges.length) ranges rest := by
  have hstep : step .start byte = (first? byte.toNat).getD (.start, [replacement]) := by
    cases hfirst : first? byte.toNat <;> simp [step, accept?, hfirst]
  rw [read_cons, hstep]
  unfold tailRanges? first?
  by_cases h1 : byte.toNat < 0x80
  · rw [if_pos h1, if_pos h1]
    exact (readAfter_complete _ rest).symm
  rw [if_neg h1, if_neg h1]
  by_cases h2 : byte.toNat < 0xc2
  · rw [if_pos h2, if_pos h2]
    rfl
  rw [if_neg h2, if_neg h2]
  by_cases h3 : byte.toNat < 0xe0
  · rw [if_pos h3, if_pos h3]
    exact read_inside _ 0 _ _ rest
  rw [if_neg h3, if_neg h3]
  by_cases h4 : byte.toNat = 0xe0
  · rw [if_pos h4, if_pos h4, h4]
    exact read_inside 0 1 0xa0 0xbf rest
  rw [if_neg h4, if_neg h4]
  by_cases h5 : byte.toNat = 0xed
  · rw [if_pos h5, if_pos h5, h5]
    exact read_afterED rest
  rw [if_neg h5, if_neg h5]
  by_cases h6 : byte.toNat < 0xf0
  · rw [if_pos h6, if_pos h6]
    exact read_inside _ 1 _ _ rest
  rw [if_neg h6, if_neg h6]
  by_cases h7 : byte.toNat = 0xf0
  · rw [if_pos h7, if_pos h7, h7]
    exact read_inside 0 2 0x90 0xbf rest
  rw [if_neg h7, if_neg h7]
  by_cases h8 : byte.toNat < 0xf4
  · rw [if_pos h8, if_pos h8]
    exact read_inside _ 2 _ _ rest
  rw [if_neg h8, if_neg h8]
  by_cases h9 : byte.toNat = 0xf4
  · rw [if_pos h9, if_pos h9, h9]
    exact read_inside 4 2 0x80 0x8f rest
  rw [if_neg h9, if_neg h9]
  rfl

theorem fitting_le_length (ranges : List (Nat × Nat)) (bytes : List UInt8) :
    fitting ranges bytes ≤ bytes.length := by
  fun_induction fitting ranges bytes with
  | case1 low high ranges byte rest hfit ih => simpa using ih
  | case2 low high ranges byte rest hunfit => exact Nat.zero_le _
  | case3 ranges bytes hshape => exact Nat.zero_le _

theorem decode_eq_read (bytes : List UInt8) : decode bytes = read .start bytes := by
  fun_induction decode bytes with
  | case1 => rfl
  | case2 byte rest hnone ih => simp [read_start_cons, hnone, ih]
  | case3 byte rest ranges hranges count hall ih =>
      have hlength : (rest.take count).length = ranges.length := by
        have hle : count ≤ rest.length := fitting_le_length ranges rest
        rw [List.length_take, Nat.min_eq_left hle, hall]
      have hpoint : codePoint byte.toNat (rest.take count) =
          joined (leadBits byte.toNat ranges.length) (rest.take count) := by
        rw [codePoint, hlength, joined]
      have hall' : fitting ranges rest = ranges.length := hall
      rw [read_start_cons, hranges, ih, hpoint]
      simp [readAfter, hall', count]
  | case4 byte rest ranges hranges count hpart ih =>
      have hpart' : fitting ranges rest ≠ ranges.length := hpart
      rw [read_start_cons, hranges, ih]
      simp [readAfter, hpart', count]

/-! ### Encoded texts -/

private theorem toListLoop_eq (bytes : ByteArray) (i : Nat) (done : List UInt8) :
    ByteArray.toList.loop bytes i done = done.reverse ++ bytes.data.toList.drop i := by
  fun_induction ByteArray.toList.loop bytes i done with
  | case1 i done hlt ih =>
      have hget : bytes.get! i = bytes.data.toList[i] := by
        simp [ByteArray.get!, hlt]
      rw [ih, hget, List.reverse_cons, List.append_assoc, List.singleton_append,
        List.getElem_cons_drop]
  | case2 i done hge =>
      have hlength : bytes.data.toList.length ≤ i := by
        simpa using hge
      rw [List.drop_eq_nil_of_le hlength, List.append_nil]

theorem encode_eq_flatMap (text : String) :
    encode text = text.toList.flatMap String.utf8EncodeChar := by
  have hbytes : text.toByteArray = text.toList.utf8Encode := String.utf8Encode_toList.symm
  rw [encode, String.toUTF8_eq_toByteArray, hbytes, List.utf8Encode, ByteArray.toList,
    toListLoop_eq]
  simp

theorem tailRanges?_of_two (b : Nat) (hb : 0xc2 ≤ b ∧ b < 0xe0) :
    tailRanges? b = some [(0x80, 0xbf)] := by
  unfold tailRanges?
  rw [if_neg (by omega), if_neg (by omega), if_pos (by omega)]

theorem tailRanges?_of_three (b : Nat) (hb : 0xe0 ≤ b ∧ b < 0xf0) :
    tailRanges? b =
      some [(if b = 0xe0 then 0xa0 else 0x80, if b = 0xed then 0x9f else 0xbf), (0x80, 0xbf)] := by
  by_cases h0 : b = 0xe0
  · subst h0
    rfl
  by_cases hd : b = 0xed
  · subst hd
    rfl
  unfold tailRanges?
  rw [if_neg (by omega), if_neg (by omega), if_neg (by omega), if_neg h0, if_neg hd,
    if_pos hb.2, if_neg h0, if_neg hd]

theorem tailRanges?_of_four (b : Nat) (hb : 0xf0 ≤ b ∧ b ≤ 0xf4) :
    tailRanges? b =
      some [(if b = 0xf0 then 0x90 else 0x80, if b = 0xf4 then 0x8f else 0xbf), (0x80, 0xbf),
        (0x80, 0xbf)] := by
  by_cases h0 : b = 0xf0
  · subst h0
    rfl
  by_cases h4 : b = 0xf4
  · subst h4
    rfl
  unfold tailRanges?
  rw [if_neg (by omega), if_neg (by omega), if_neg (by omega), if_neg (by omega),
    if_neg (by omega), if_neg (by omega), if_neg h0, if_pos (by omega), if_neg h0, if_neg h4]

/-- A byte after the first one of a character carries six bits of it. -/
theorem toNat_tailByte (n : Nat) : (UInt8.ofNat (n % 0x40 + 0x80)).toNat = n % 0x40 + 0x80 := by
  rw [UInt8.toNat_ofNat']
  omega

/-- A byte is in the range that is open for it. -/
def Fits (range : Nat × Nat) (byte : UInt8) : Prop :=
  range.1 ≤ byte.toNat ∧ byte.toNat ≤ range.2

/-- The bytes of one character: the first one opens ranges, the others are in them, and all of them
together hold the character. -/
theorem utf8EncodeChar_eq (c : Char) :
    ∃ lead tail ranges, String.utf8EncodeChar c = lead :: tail ∧
      tailRanges? lead.toNat = some ranges ∧ List.Forall₂ Fits ranges tail ∧
      joined (leadBits lead.toNat ranges.length) tail = c.toNat := by
  have hvalid : c.toNat < 0xd800 ∨ 0xdfff < c.toNat ∧ c.toNat < 0x110000 := c.valid
  fun_cases String.utf8EncodeChar c with
  | case1 v h1 =>
      have hlead : (UInt8.ofNat v).toNat = v := by
        rw [UInt8.toNat_ofNat']
        omega
      have hranges : tailRanges? v = some [] := by
        unfold tailRanges?
        rw [if_pos (by omega)]
      refine ⟨_, _, [], rfl, by rw [hlead, hranges], .nil, ?_⟩
      rw [hlead]
      rfl
  | case2 v h1 h2 =>
      have hv : v = c.toNat := rfl
      have hlead : (UInt8.ofNat (v / 64 % 0x20 + 0xc0)).toNat = v / 64 + 0xc0 := by
        rw [UInt8.toNat_ofNat']
        omega
      have htail := toNat_tailByte v
      refine ⟨_, _, _, rfl, by rw [hlead]; exact tailRanges?_of_two _ (by omega), .cons ?_ .nil, ?_⟩
      · rw [Fits, htail]
        omega
      · rw [hlead]
        change (v / 64 + 0xc0 - 0xc0) * 64 + (_ - 0x80) = c.toNat
        rw [htail]
        omega
  | case3 v h1 h2 h3 =>
      have hv : v = c.toNat := rfl
      have hlead : (UInt8.ofNat (v / 4096 % 0x10 + 0xe0)).toNat = v / 4096 + 0xe0 := by
        rw [UInt8.toNat_ofNat']
        omega
      have hsecond := toNat_tailByte (v / 64)
      have hthird := toNat_tailByte v
      refine ⟨_, _, _, rfl, by rw [hlead]; exact tailRanges?_of_three _ (by omega),
        .cons ?_ (.cons ?_ .nil), ?_⟩
      · -- The narrowed ranges leave out overlong forms and surrogates.
        rw [Fits, hsecond]
        split_ifs <;> omega
      · rw [Fits, hthird]
        omega
      · rw [hlead]
        change ((v / 4096 + 0xe0 - 0xe0) * 64 + (_ - 0x80)) * 64 + (_ - 0x80) = c.toNat
        rw [hsecond, hthird]
        omega
  | case4 v h1 h2 h3 =>
      have hv : v = c.toNat := rfl
      have hlead : (UInt8.ofNat (v / 262144 % 0x08 + 0xf0)).toNat = v / 262144 + 0xf0 := by
        rw [UInt8.toNat_ofNat']
        omega
      have hsecond := toNat_tailByte (v / 4096)
      have hthird := toNat_tailByte (v / 64)
      have hfourth := toNat_tailByte v
      refine ⟨_, _, _, rfl, by rw [hlead]; exact tailRanges?_of_four _ (by omega),
        .cons ?_ (.cons ?_ (.cons ?_ .nil)), ?_⟩
      · rw [Fits, hsecond]
        split_ifs <;> omega
      · rw [Fits, hthird]
        omega
      · rw [Fits, hfourth]
        omega
      · rw [hlead]
        change (((v / 262144 + 0xf0 - 0xf0) * 64 + (_ - 0x80)) * 64 + (_ - 0x80)) * 64 +
          (_ - 0x80) = c.toNat
        rw [hsecond, hthird, hfourth]
        omega

theorem readAfter_of_fits {ranges : List (Nat × Nat)} {tail : List UInt8}
    (hfits : List.Forall₂ Fits ranges tail) (bits : Nat) (rest : List UInt8) :
    readAfter bits ranges (tail ++ rest) = Char.ofNat (joined bits tail) :: read .start rest := by
  induction hfits generalizing bits with
  | nil => exact readAfter_complete bits rest
  | cons hfit _ ih =>
      rw [List.cons_append, readAfter_of_fit _ _ _ _ _ hfit, joined_cons, ih]

/-- The bytes of one character give that character, whatever follows them. -/
theorem read_encoded_char (c : Char) (rest : List UInt8) :
    read .start (String.utf8EncodeChar c ++ rest) = c :: read .start rest := by
  obtain ⟨lead, tail, ranges, hbytes, hranges, hfits, hpoint⟩ := utf8EncodeChar_eq c
  rw [hbytes, List.cons_append, read_start_cons, hranges]
  change readAfter _ ranges _ = _
  rw [readAfter_of_fits hfits, hpoint, Char.ofNat_toNat]

theorem decode_encode (text : String) : decode (encode text) = text.toList := by
  rw [decode_eq_read, encode_eq_flatMap]
  induction text.toList with
  | nil => rfl
  | cons c rest ih => rw [List.flatMap_cons, read_encoded_char, ih]

/-! ### The reader that refuses faults -/

/-- What a state inside a character waits for: bytes in these ranges, which are added to the
bits. -/
inductive Awaits : State → Nat → List (Nat × Nat) → Prop where
  | inside (bits missing low high : Nat) :
      Awaits (.inside bits (missing + 1) low high) bits (openRanges missing low high)
  | afterED : Awaits .afterED 0xd [(0x80, 0x9f), (0x80, 0xbf)]

/-- A byte that fits is taken: it is the last one of the character or leaves the other ranges
open. -/
theorem Awaits.accept {state : State} {bits : Nat} {range : Nat × Nat} {ranges : List (Nat × Nat)}
    (hawaits : Awaits state bits (range :: ranges)) {byte : UInt8} (hfit : Fits range byte) :
    (ranges = [] ∧
      accept? state byte.toNat = some (.start, [Char.ofNat (bits * 64 + (byte.toNat - 0x80))])) ∨
    ∃ next, accept? state byte.toNat = some (next, []) ∧
      Awaits next (bits * 64 + (byte.toNat - 0x80)) ranges := by
  cases hawaits with
  | inside bits missing low high =>
      have hrange : low ≤ byte.toNat ∧ byte.toNat ≤ high := hfit
      cases missing with
      | zero => exact Or.inl ⟨rfl, by simp [accept?, hrange, further]⟩
      | succ missing =>
          exact Or.inr ⟨_, by simp [accept?, hrange, further], .inside _ missing _ _⟩
  | afterED =>
      have hrange : 0x80 ≤ byte.toNat ∧ byte.toNat ≤ 0x9f := hfit
      exact Or.inr ⟨_, by simp [accept?, hrange, further], .inside _ 0 _ _⟩

/-- The same for a first byte, by the ranges that it opens. -/
theorem awaits_first {b : Nat} {ranges : List (Nat × Nat)} (hranges : tailRanges? b = some ranges) :
    (ranges = [] ∧ first? b = some (.start, [Char.ofNat (leadBits b ranges.length)])) ∨
    ∃ next, first? b = some (next, []) ∧ Awaits next (leadBits b ranges.length) ranges := by
  unfold tailRanges? at hranges
  unfold first?
  by_cases h1 : b < 0x80
  · rw [if_pos h1] at hranges ⊢
    cases hranges
    exact Or.inl ⟨rfl, rfl⟩
  rw [if_neg h1] at hranges ⊢
  by_cases h2 : b < 0xc2
  · rw [if_pos h2] at hranges ⊢
    cases hranges
  rw [if_neg h2] at hranges ⊢
  by_cases h3 : b < 0xe0
  · rw [if_pos h3] at hranges ⊢
    cases hranges
    exact Or.inr ⟨_, rfl, .inside _ 0 _ _⟩
  rw [if_neg h3] at hranges ⊢
  by_cases h4 : b = 0xe0
  · rw [if_pos h4] at hranges ⊢
    cases hranges
    subst h4
    exact Or.inr ⟨_, rfl, .inside _ 1 _ _⟩
  rw [if_neg h4] at hranges ⊢
  by_cases h5 : b = 0xed
  · rw [if_pos h5] at hranges ⊢
    cases hranges
    subst h5
    exact Or.inr ⟨_, rfl, .afterED⟩
  rw [if_neg h5] at hranges ⊢
  by_cases h6 : b < 0xf0
  · rw [if_pos h6] at hranges ⊢
    cases hranges
    exact Or.inr ⟨_, rfl, .inside _ 1 _ _⟩
  rw [if_neg h6] at hranges ⊢
  by_cases h7 : b = 0xf0
  · rw [if_pos h7] at hranges ⊢
    cases hranges
    subst h7
    exact Or.inr ⟨_, rfl, .inside _ 2 _ _⟩
  rw [if_neg h7] at hranges ⊢
  by_cases h8 : b < 0xf4
  · rw [if_pos h8] at hranges ⊢
    cases hranges
    exact Or.inr ⟨_, rfl, .inside _ 2 _ _⟩
  rw [if_neg h8] at hranges ⊢
  by_cases h9 : b = 0xf4
  · rw [if_pos h9] at hranges ⊢
    cases hranges
    subst h9
    exact Or.inr ⟨_, rfl, .inside _ 2 _ _⟩
  rw [if_neg h9] at hranges ⊢
  cases hranges

/-- From a state the bytes give the character, whatever follows them. Where in the input they stand
does not matter for this. -/
def Gives (state : State) (bytes : List UInt8) (c : Char) : Prop :=
  ∀ lead start pos rest, ∃ lead' start' pos', strictFrom state lead start pos (bytes ++ rest) =
    (strictFrom .start lead' start' pos' rest).map (c :: ·)

theorem gives_last {state : State} {byte : UInt8} {c : Char}
    (haccept : accept? state byte.toNat = some (.start, [c])) : Gives state [byte] c := by
  intro lead start pos rest
  simp only [List.singleton_append, strictFrom, haccept]
  exact ⟨_, _, _, rfl⟩

theorem Gives.cons {state next : State} {byte : UInt8} {bytes : List UInt8} {c : Char}
    (hgives : Gives next bytes c) (haccept : accept? state byte.toNat = some (next, [])) :
    Gives state (byte :: bytes) c := by
  intro lead start pos rest
  simp only [List.cons_append, strictFrom, haccept]
  obtain ⟨lead', start', pos', hmore⟩ := hgives _ _ _ rest
  refine ⟨lead', start', pos', ?_⟩
  rw [hmore]
  cases strictFrom .start lead' start' pos' rest <;> rfl

theorem Awaits.gives {ranges : List (Nat × Nat)} {tail : List UInt8}
    (hfits : List.Forall₂ Fits ranges tail) {state : State} {bits : Nat}
    (hawaits : Awaits state bits ranges) : Gives state tail (Char.ofNat (joined bits tail)) := by
  induction hfits generalizing state bits with
  | nil => cases hawaits
  | cons hfit hrest ih =>
      rw [joined_cons]
      rcases hawaits.accept hfit with ⟨rfl, haccept⟩ | ⟨next, haccept, hnext⟩
      · cases hrest
        rw [joined_nil]
        exact gives_last haccept
      · exact (ih hnext).cons haccept

theorem gives_encoded_char (c : Char) : Gives .start (String.utf8EncodeChar c) c := by
  obtain ⟨lead, tail, ranges, hbytes, hranges, hfits, hpoint⟩ := utf8EncodeChar_eq c
  have hchar : Char.ofNat (joined (leadBits lead.toNat ranges.length) tail) = c := by
    rw [hpoint, Char.ofNat_toNat]
  rw [hbytes, ← hchar]
  rcases awaits_first hranges with ⟨rfl, hfirst⟩ | ⟨next, hfirst, hawaits⟩
  · cases hfits
    exact gives_last hfirst
  · exact (Awaits.gives hfits hawaits).cons hfirst

/-- A text that was encoded has no fault. -/
theorem strict_encode (text : String) : strict (encode text) = .ok text.toList := by
  have hall (cs : List Char) (lead start pos : Nat) :
      strictFrom .start lead start pos (cs.flatMap String.utf8EncodeChar) = .ok cs := by
    induction cs generalizing lead start pos with
    | nil => rfl
    | cons c rest ih =>
        obtain ⟨lead', start', pos', hmore⟩ :=
          gives_encoded_char c lead start pos (rest.flatMap String.utf8EncodeChar)
        rw [List.flatMap_cons, hmore, ih]
        rfl
  rw [strict, encode_eq_flatMap, hall]

/-! ### Bytes that are read without a fault -/

/-- No character starts with such a byte. -/
def StartsNone (b : Nat) : Prop :=
  0x80 ≤ b ∧ b < 0xc2 ∨ 0xf4 < b

theorem tailRanges?_of_startsNone {b : Nat} (hb : StartsNone b) : tailRanges? b = none := by
  unfold tailRanges?
  rcases hb with hb | hb
  · rw [if_neg (by omega), if_pos (by omega)]
  · rw [if_neg (by omega), if_neg (by omega), if_neg (by omega), if_neg (by omega),
      if_neg (by omega), if_neg (by omega), if_neg (by omega), if_neg (by omega), if_neg (by omega)]

theorem first?_of_startsNone {b : Nat} (hb : StartsNone b) : first? b = none := by
  unfold first?
  rcases hb with hb | hb
  · rw [if_neg (by omega), if_pos (by omega)]
  · rw [if_neg (by omega), if_neg (by omega), if_neg (by omega), if_neg (by omega),
      if_neg (by omega), if_neg (by omega), if_neg (by omega), if_neg (by omega), if_neg (by omega)]

/-- What the first bytes of characters open, by the length of the character. -/
theorem tailRanges?_cases (b : Nat) :
    (b < 0x80 ∧ tailRanges? b = some []) ∨
    ((0xc2 ≤ b ∧ b < 0xe0) ∧ tailRanges? b = some [(0x80, 0xbf)]) ∨
    ((0xe0 ≤ b ∧ b < 0xf0) ∧ tailRanges? b =
      some [(if b = 0xe0 then 0xa0 else 0x80, if b = 0xed then 0x9f else 0xbf), (0x80, 0xbf)]) ∨
    ((0xf0 ≤ b ∧ b ≤ 0xf4) ∧ tailRanges? b =
      some [(if b = 0xf0 then 0x90 else 0x80, if b = 0xf4 then 0x8f else 0xbf), (0x80, 0xbf),
        (0x80, 0xbf)]) ∨
    StartsNone b := by
  by_cases hone : b < 0x80
  · exact Or.inl ⟨hone, by rw [tailRanges?, if_pos hone]⟩
  by_cases htwo : 0xc2 ≤ b ∧ b < 0xe0
  · exact Or.inr (Or.inl ⟨htwo, tailRanges?_of_two b htwo⟩)
  by_cases hthree : 0xe0 ≤ b ∧ b < 0xf0
  · exact Or.inr (Or.inr (Or.inl ⟨hthree, tailRanges?_of_three b hthree⟩))
  by_cases hfour : 0xf0 ≤ b ∧ b ≤ 0xf4
  · exact Or.inr (Or.inr (Or.inr (Or.inl ⟨hfour, tailRanges?_of_four b hfour⟩)))
  refine Or.inr (Or.inr (Or.inr (Or.inr ?_)))
  rw [StartsNone]
  omega

theorem first?_eq_none {b : Nat} (hnone : tailRanges? b = none) : first? b = none := by
  rcases tailRanges?_cases b with ⟨-, h⟩ | ⟨-, h⟩ | ⟨-, h⟩ | ⟨-, h⟩ | h
  · cases h.symm.trans hnone
  · cases h.symm.trans hnone
  · cases h.symm.trans hnone
  · cases h.symm.trans hnone
  · exact first?_of_startsNone h

theorem val_ofNat {v : Nat} (hv : v < 0xd800 ∨ 0xdfff < v ∧ v < 0x110000) :
    (Char.ofNat v).val.toNat = v := by
  have hvalid : v.isValidChar := hv
  rw [Char.ofNat, dif_pos hvalid]
  rfl

theorem uint8_ofNat_eq {n : Nat} {byte : UInt8} (hn : n = byte.toNat) : UInt8.ofNat n = byte := by
  rw [hn, UInt8.ofNat_toNat]

section OfFits

variable {lead second third fourth : UInt8}

theorem utf8EncodeChar_of_one (hlead : lead.toNat < 0x80) :
    String.utf8EncodeChar (Char.ofNat lead.toNat) = [lead] := by
  rw [String.utf8EncodeChar, val_ofNat (by omega), if_pos (by omega), uint8_ofNat_eq rfl]

theorem utf8EncodeChar_of_two (hlead : 0xc2 ≤ lead.toNat ∧ lead.toNat < 0xe0)
    (hsecond : Fits (0x80, 0xbf) second) :
    String.utf8EncodeChar (Char.ofNat ((lead.toNat - 0xc0) * 64 + (second.toNat - 0x80))) =
      [lead, second] := by
  obtain ⟨hlow, hhigh⟩ := hsecond
  simp only at hlow hhigh
  rw [String.utf8EncodeChar, val_ofNat (by omega), if_neg (by omega), if_pos (by omega),
    @uint8_ofNat_eq _ lead (by omega), @uint8_ofNat_eq _ second (by omega)]

theorem utf8EncodeChar_of_three (hlead : 0xe0 ≤ lead.toNat ∧ lead.toNat < 0xf0)
    (hsecond : Fits (if lead.toNat = 0xe0 then 0xa0 else 0x80,
      if lead.toNat = 0xed then 0x9f else 0xbf) second)
    (hthird : Fits (0x80, 0xbf) third) :
    String.utf8EncodeChar (Char.ofNat
      (((lead.toNat - 0xe0) * 64 + (second.toNat - 0x80)) * 64 + (third.toNat - 0x80))) =
      [lead, second, third] := by
  obtain ⟨⟨hlow, hhigh⟩, hlow', hhigh'⟩ := And.intro hsecond hthird
  simp only at hlow hhigh hlow' hhigh'
  -- The narrowed ranges keep the character above the shorter forms and off the surrogates.
  have hhead : 0x20 ≤ (lead.toNat - 0xe0) * 64 + (second.toNat - 0x80) ∧
      ((lead.toNat - 0xe0) * 64 + (second.toNat - 0x80) < 0x360 ∨
        0x37f < (lead.toNat - 0xe0) * 64 + (second.toNat - 0x80)) ∧
      0x80 ≤ second.toNat ∧ second.toNat ≤ 0xbf := by
    split_ifs at hlow hhigh <;> omega
  rw [String.utf8EncodeChar, val_ofNat (by omega), if_neg (by omega), if_neg (by omega),
    if_pos (by omega), @uint8_ofNat_eq _ lead (by omega), @uint8_ofNat_eq _ second (by omega),
    @uint8_ofNat_eq _ third (by omega)]

theorem utf8EncodeChar_of_four (hlead : 0xf0 ≤ lead.toNat ∧ lead.toNat ≤ 0xf4)
    (hsecond : Fits (if lead.toNat = 0xf0 then 0x90 else 0x80,
      if lead.toNat = 0xf4 then 0x8f else 0xbf) second)
    (hthird : Fits (0x80, 0xbf) third) (hfourth : Fits (0x80, 0xbf) fourth) :
    String.utf8EncodeChar (Char.ofNat
      ((((lead.toNat - 0xf0) * 64 + (second.toNat - 0x80)) * 64 + (third.toNat - 0x80)) * 64 +
        (fourth.toNat - 0x80))) =
      [lead, second, third, fourth] := by
  obtain ⟨⟨hlow, hhigh⟩, ⟨hlow', hhigh'⟩, hlow'', hhigh''⟩ :=
    And.intro hsecond (And.intro hthird hfourth)
  simp only at hlow hhigh hlow' hhigh' hlow'' hhigh''
  have hhead : 0x10 ≤ (lead.toNat - 0xf0) * 64 + (second.toNat - 0x80) ∧
      (lead.toNat - 0xf0) * 64 + (second.toNat - 0x80) < 0x110 ∧
      0x80 ≤ second.toNat ∧ second.toNat ≤ 0xbf := by
    split_ifs at hlow hhigh <;> omega
  rw [String.utf8EncodeChar, val_ofNat (by omega), if_neg (by omega), if_neg (by omega),
    if_neg (by omega), @uint8_ofNat_eq _ lead (by omega), @uint8_ofNat_eq _ second (by omega),
    @uint8_ofNat_eq _ third (by omega), @uint8_ofNat_eq _ fourth (by omega)]

end OfFits

/-- A first byte and bytes that are in the ranges it opens are those of the character they hold. -/
theorem utf8EncodeChar_of_fits {lead : UInt8} {tail : List UInt8} {ranges : List (Nat × Nat)}
    (hranges : tailRanges? lead.toNat = some ranges) (hfits : List.Forall₂ Fits ranges tail) :
    String.utf8EncodeChar (Char.ofNat (joined (leadBits lead.toNat ranges.length) tail)) =
      lead :: tail := by
  rcases tailRanges?_cases lead.toNat with
    ⟨hlead, h⟩ | ⟨hlead, h⟩ | ⟨hlead, h⟩ | ⟨hlead, h⟩ | h
  · cases h.symm.trans hranges
    cases hfits
    exact utf8EncodeChar_of_one hlead
  · cases h.symm.trans hranges
    obtain _ | ⟨hsecond, _ | _⟩ := hfits
    exact utf8EncodeChar_of_two hlead hsecond
  · cases h.symm.trans hranges
    obtain _ | ⟨hsecond, _ | ⟨hthird, _ | _⟩⟩ := hfits
    exact utf8EncodeChar_of_three hlead hsecond hthird
  · cases h.symm.trans hranges
    obtain _ | ⟨hsecond, _ | ⟨hthird, _ | ⟨hfourth, _ | _⟩⟩⟩ := hfits
    exact utf8EncodeChar_of_four hlead hsecond hthird hfourth
  · cases (tailRanges?_of_startsNone h).symm.trans hranges

/-- A byte outside of the open range is refused. -/
theorem Awaits.refuse {state : State} {bits : Nat} {range : Nat × Nat} {ranges : List (Nat × Nat)}
    (hawaits : Awaits state bits (range :: ranges)) {byte : UInt8} (hunfit : ¬ Fits range byte) :
    accept? state byte.toNat = none := by
  cases hawaits with
  | inside bits missing low high =>
      have hrange : ¬ (low ≤ byte.toNat ∧ byte.toNat ≤ high) := hunfit
      simpa [accept?] using hrange
  | afterED =>
      have hrange : ¬ (0x80 ≤ byte.toNat ∧ byte.toNat ≤ 0x9f) := hunfit
      simpa [accept?] using hrange

theorem Awaits.ne_start {state : State} {bits : Nat} {ranges : List (Nat × Nat)}
    (hawaits : Awaits state bits ranges) : state ≠ .start := by
  cases hawaits <;> simp

theorem Awaits.exists_cons {state : State} {bits : Nat} {ranges : List (Nat × Nat)}
    (hawaits : Awaits state bits ranges) : ∃ range more, ranges = range :: more := by
  cases hawaits with
  | inside bits missing low high => exact ⟨_, _, rfl⟩
  | afterED => exact ⟨_, _, rfl⟩

theorem strictFrom_cons_eq_ok {state next : State} {byte : UInt8} {known chars : List Char}
    (haccept : accept? state byte.toNat = some (next, known)) {lead start pos : Nat}
    {rest : List UInt8} (hread : strictFrom state lead start pos (byte :: rest) = .ok chars) :
    ∃ lead' start' more, strictFrom next lead' start' (pos + 1) rest = .ok more ∧
      chars = known ++ more := by
  simp only [strictFrom, haccept] at hread
  cases hmore : strictFrom next (if state = .start then (byte.toNat, pos) else (lead, start)).1
      (if state = .start then (byte.toNat, pos) else (lead, start)).2 (pos + 1) rest with
  | error defect =>
      rw [hmore] at hread
      cases hread
  | ok more =>
      rw [hmore] at hread
      cases hread
      exact ⟨_, _, more, hmore, rfl⟩

/-- What is read from inside a character starts with the bytes that it still needs. -/
theorem Awaits.strictFrom_eq_ok {bytes : List UInt8} {state : State} {bits : Nat}
    {ranges : List (Nat × Nat)} (hawaits : Awaits state bits ranges) {chars : List Char}
    {lead start pos : Nat} (hread : strictFrom state lead start pos bytes = .ok chars) :
    ∃ tail rest more, bytes = tail ++ rest ∧ List.Forall₂ Fits ranges tail ∧
      chars = Char.ofNat (joined bits tail) :: more ∧
      ∃ lead' start' pos', strictFrom .start lead' start' pos' rest = .ok more := by
  induction bytes generalizing state bits ranges lead start pos with
  | nil =>
      rw [strictFrom, if_neg hawaits.ne_start] at hread
      cases hread
  | cons byte bytes ih =>
      obtain ⟨range, ranges, rfl⟩ := hawaits.exists_cons
      by_cases hfit : Fits range byte
      · rcases hawaits.accept hfit with ⟨rfl, haccept⟩ | ⟨next, haccept, hnext⟩
        · obtain ⟨lead', start', more, hmore, rfl⟩ := strictFrom_cons_eq_ok haccept hread
          exact ⟨[byte], bytes, more, rfl, .cons hfit .nil, rfl, _, _, _, hmore⟩
        · obtain ⟨lead', start', more, hmore, rfl⟩ := strictFrom_cons_eq_ok haccept hread
          obtain ⟨tail, rest, others, rfl, hfits, rfl, hothers⟩ := ih hnext hmore
          refine ⟨byte :: tail, rest, others, rfl, .cons hfit hfits, ?_, hothers⟩
          rw [joined_cons]
      · simp only [strictFrom, hawaits.refuse hfit] at hread
        cases hread

/-- The bytes in front are those of one character, and so on. -/
theorem flatMap_of_strictFrom {bytes : List UInt8} {chars : List Char} {lead start pos : Nat}
    (hread : strictFrom .start lead start pos bytes = .ok chars) :
    chars.flatMap String.utf8EncodeChar = bytes := by
  induction hlength : bytes.length using Nat.strongRecOn
    generalizing bytes chars lead start pos with
  | ind n ih =>
    cases bytes with
    | nil =>
        cases hread
        rfl
    | cons byte bytes =>
        cases hranges : tailRanges? byte.toNat with
        | none =>
            simp only [strictFrom, accept?, first?_eq_none hranges] at hread
            cases hread
        | some ranges =>
            obtain ⟨tail, rest, more, hfits, rfl, rfl, hmore⟩ : ∃ tail rest more,
                List.Forall₂ Fits ranges tail ∧ bytes = tail ++ rest ∧
                chars = Char.ofNat (joined (leadBits byte.toNat ranges.length) tail) :: more ∧
                ∃ lead' start' pos', strictFrom .start lead' start' pos' rest = .ok more := by
              rcases awaits_first hranges with ⟨rfl, hfirst⟩ | ⟨next, hfirst, hawaits⟩
              · obtain ⟨lead', start', more, hmore, rfl⟩ :=
                  @strictFrom_cons_eq_ok .start _ byte _ _ hfirst _ _ _ _ hread
                exact ⟨[], bytes, more, .nil, rfl, rfl, _, _, _, hmore⟩
              · obtain ⟨lead', start', known, hknown, rfl⟩ :=
                  @strictFrom_cons_eq_ok .start _ byte _ _ hfirst _ _ _ _ hread
                obtain ⟨tail, rest, more, rfl, hfits, rfl, hmore⟩ := hawaits.strictFrom_eq_ok hknown
                exact ⟨tail, rest, more, hfits, rfl, rfl, hmore⟩
            obtain ⟨lead', start', pos', hmore⟩ := hmore
            have hshorter : rest.length < n := by
              rw [← hlength, List.length_cons, List.length_append]
              omega
            rw [List.flatMap_cons, utf8EncodeChar_of_fits hranges hfits,
              ih _ hshorter hmore rfl, List.cons_append]

/-- Exactly the bytes of texts are read without a fault. -/
theorem strict_eq_ok_iff {bytes : List UInt8} {text : String} :
    strict bytes = .ok text.toList ↔ bytes = encode text := by
  constructor
  · intro hread
    rw [encode_eq_flatMap, flatMap_of_strictFrom hread]
  · rintro rfl
    exact strict_encode text

end Conductor.Utf8
