import Vimla.Lib.Base64

/-!
# Texts that arrive in pieces

The decoder of UTF-8 that keeps its state between pieces of bytes, CRLF made LF,
and the blocks of a text that blank lines end. Each of them can go on with what is
left of the pieces before.
-/

namespace TextStream

open Base64 (Bytes)
open List Nat

/-- A sequence that is not complete yet, of which `remaining` bytes are to come. -/
structure Utf8 where
  codePoint : Nat := 0
  remaining : Nat := 0
  lower : Nat := 0x80
  upper : Nat := 0xBF
  deriving DecidableEq

/-- A byte at the beginning of a sequence. -/
def start (byte : UInt8) : Utf8 × List Char :=
  let b := byte.toNat
  if b ≤ 0x7F then ({}, [Char.ofNat b])
  else if 0xC2 ≤ b ∧ b ≤ 0xDF then ({ codePoint := b % 0x20, remaining := 1 }, [])
  else if 0xE0 ≤ b ∧ b ≤ 0xEF then
    ({ codePoint := b % 0x10, remaining := 2, lower := if b = 0xE0 then 0xA0 else 0x80, upper := if b = 0xED then 0x9F else 0xBF }, [])
  else if 0xF0 ≤ b ∧ b ≤ 0xF4 then
    ({ codePoint := b % 8, remaining := 3, lower := if b = 0xF0 then 0x90 else 0x80, upper := if b = 0xF4 then 0x8F else 0xBF }, [])
  else ({}, ['\uFFFD'])

/-- A byte that cannot continue a sequence replaces it and begins the next. -/
def step (s : Utf8) (byte : UInt8) : Utf8 × List Char :=
  if s.remaining = 0 then start byte
  else if byte.toNat < s.lower ∨ s.upper < byte.toNat then ((start byte).1, '\uFFFD' :: (start byte).2)
  else
    let codePoint := s.codePoint * 0x40 + byte.toNat % 0x40
    if s.remaining = 1 then ({}, [Char.ofNat codePoint]) else ({ codePoint := codePoint, remaining := s.remaining - 1 }, [])

/-- The characters that some bytes complete. -/
def read (s : Utf8) : Bytes → Utf8 × List Char
  | [] => (s, [])
  | byte :: bytes => ((read (step s byte).1 bytes).1, (step s byte).2 ++ (read (step s byte).1 bytes).2)

/-- At the end of the input a sequence that is not complete is replaced. -/
def Utf8.flush (s : Utf8) : List Char := if s.remaining = 0 then [] else ['\uFFFD']

theorem read_append (s : Utf8) (a b : Bytes) :
    read s (a ++ b) = ((read (read s a).1 b).1, (read s a).2 ++ (read (read s a).1 b).2) := by
  induction a generalizing s with
  | nil => rfl
  | cons byte a ih => simp [cons_append, read, ih, append_assoc]

/-- The decoder drops a byte order mark at the very beginning. -/
structure TextDecoder where
  utf8 : Utf8 := {}
  bomSeen : Bool := false

def TextDecoder.shown (d : TextDecoder) : List Char → List Char
  | [] => []
  | c :: text => if !d.bomSeen && c = '\uFEFF' then text else c :: text

/-- `decode(bytes, { stream: true })`. -/
def TextDecoder.decode (d : TextDecoder) (bytes : Bytes) : TextDecoder × List Char :=
  let result := read d.utf8 bytes
  ({ utf8 := result.1, bomSeen := d.bomSeen || !result.2.isEmpty }, d.shown result.2)

/-- `decode()`. -/
def TextDecoder.finish (d : TextDecoder) : List Char := d.shown d.utf8.flush

theorem decode_append (d : TextDecoder) (a b : Bytes) :
    d.decode (a ++ b) = (((d.decode a).1.decode b).1, (d.decode a).2 ++ ((d.decode a).1.decode b).2) := by
  unfold TextDecoder.decode
  simp only [read_append]
  cases (read d.utf8 a).2 with
  | nil => simp [TextDecoder.shown]
  | cons c text =>
    cases seen : d.bomSeen with
    | true =>
      cases (read (read d.utf8 a).1 b).2 <;> simp [TextDecoder.shown, seen]
    | false =>
      by_cases mark : c = '\uFEFF'
      · cases (read (read d.utf8 a).1 b).2 <;> simp [TextDecoder.shown, seen, mark]
      · cases (read (read d.utf8 a).1 b).2 <;> simp [TextDecoder.shown, seen, mark]

/-- Each `a` that is not the last element is followed by `b`. -/
def Followed {α : Type} (a b : α) : List α → Prop
  | [] => True
  | x :: rest => (x = a → ∀ y ∈ rest.head?, y = b) ∧ Followed a b rest

variable {α : Type} {byte : UInt8} {s : Utf8} {bytes : Bytes} {a b : List Char}

theorem Followed.of_append {a b : α} {l l' : List α} (h : Followed a b (l ++ l')) : Followed a b l := by
  induction l with
  | nil => trivial
  | cons x l ih =>
    refine ⟨fun same y first => h.1 same y ?_, ih h.2⟩
    cases l with
    | nil => cases first
    | cons z l => exact first

theorem Followed.append {a b : α} {l l' : List α} (none : a ∉ l) (h : Followed a b l') : Followed a b (l ++ l') := by
  induction l with
  | nil => exact h
  | cons x l ih =>
    rw [mem_cons, not_or] at none
    exact ⟨fun same => absurd same.symm none.1, ih none.2⟩

theorem followed_of_notMem {a b : α} {l : List α} (none : a ∉ l) : Followed a b l := by
  have whole := @Followed.append α a b l [] none trivial
  rwa [append_nil] at whole

/-- A sequence that is not complete does not become an ASCII character. -/
structure Utf8.Sound (s : Utf8) : Prop where
  lower : 0x80 ≤ s.lower
  upper : s.upper ≤ 0xBF
  three : s.remaining = 3 → 1 ≤ s.codePoint ∨ 0x90 ≤ s.lower
  two : s.remaining = 2 → 1 ≤ s.codePoint ∨ 0xA0 ≤ s.lower
  one : s.remaining = 1 → 2 ≤ s.codePoint
  most : s.remaining ≤ 3

theorem Utf8.Sound.initial : ({} : Utf8).Sound := ⟨by decide, by decide, by decide, by decide, by decide, by decide⟩

theorem ofNat_ne_return {n : Nat} (other : n ≠ 13) : Char.ofNat n ≠ '\r' := by
  intro same
  by_cases valid : n.isValidChar
  · have value := congrArg Char.toNat same
    simp [Char.ofNat, valid, Char.toNat, Char.ofNatAux] at value
    exact other value
  · rw [Char.ofNat, dif_neg valid] at same
    exact absurd same (by decide)

theorem start_sound (byte : UInt8) : (start byte).1.Sound := by
  unfold start
  dsimp only
  split
  · exact .initial
  split
  · refine ⟨le_refl _, le_refl _, ?_, ?_, ?_, le_of_ble_eq_true rfl⟩
    · intro h
      cases h
    · intro h
      cases h
    · intro _
      dsimp only
      omega
  split
  · refine ⟨?_, ?_, ?_, ?_, ?_, le_of_ble_eq_true rfl⟩
    · dsimp only
      split <;> omega
    · dsimp only
      split <;> omega
    · intro h
      cases h
    · intro _
      dsimp only
      split <;> omega
    · intro h
      cases h
  split
  · refine ⟨?_, ?_, ?_, ?_, ?_, le_of_ble_eq_true rfl⟩
    · dsimp only
      split <;> omega
    · dsimp only
      split <;> omega
    · intro _
      dsimp only
      split <;> omega
    · intro h
      cases h
    · intro h
      cases h
  · exact .initial

theorem start_return : start 0x0D = ({}, ['\r']) := by decide

theorem start_other (other : byte ≠ 0x0D) : '\r' ∉ (start byte).2 := by
  unfold start
  dsimp only
  split
  · rw [mem_singleton]
    intro same
    have differs : byte.toNat ≠ 13 := fun h => other (UInt8.toNat_inj.1 h)
    exact ofNat_ne_return differs same.symm
  iterate 3
    split
    · exact not_mem_nil
  · decide

theorem step_sound (sound : s.Sound) (byte : UInt8) : (step s byte).1.Sound := by
  unfold step
  split
  · exact start_sound byte
  split
  · exact start_sound byte
  split
  · exact .initial
  have three := sound.three
  have two := sound.two
  have most := sound.most
  have upper := sound.upper
  refine ⟨le_refl _, le_refl _, ?_, ?_, ?_, ?_⟩
  · intro h
    dsimp only at h
    omega
  iterate 2
    · intro h
      dsimp only at h ⊢
      omega
  · dsimp only
    omega

theorem step_return (s : Utf8) (sound : s.Sound) : ∃ x, (step s 0x0D) = ({}, x ++ ['\r']) ∧ '\r' ∉ x := by
  unfold step
  split
  · exact ⟨[], start_return, not_mem_nil⟩
  · have lower := sound.lower
    rw [if_pos (.inl (lt_of_lt_of_le (by decide) lower)), start_return]
    exact ⟨['\uFFFD'], rfl, by decide⟩

theorem step_other (sound : s.Sound) (other : byte ≠ 0x0D) : '\r' ∉ (step s byte).2 := by
  unfold step
  split
  · exact start_other other
  split
  · rw [mem_cons, not_or]
    exact ⟨by decide, start_other other⟩
  split
  · rename_i last
    have one := sound.one last
    rw [mem_singleton]
    exact fun same => ofNat_ne_return (by omega) same.symm
  · exact not_mem_nil

theorem read_followed (sound : s.Sound) (h : Followed 0x0D 0x0A bytes) : Followed '\r' '\n' (read s bytes).2 := by
  induction bytes generalizing s with
  | nil => trivial
  | cons byte bytes ih =>
    have rest := ih (step_sound sound byte) h.2
    by_cases ret : byte = 0x0D
    · subst ret
      obtain ⟨x, result, none⟩ := step_return s sound
      rw [result] at rest
      have text : (read s (0x0D :: bytes)).2 = x ++ ('\r' :: (read {} bytes).2) := by
        rw [read, result, append_assoc]
        rfl
      rw [text]
      refine Followed.append none ⟨?_, rest⟩
      intro _ y first
      cases bytes with
      | nil => cases first
      | cons next bytes =>
        obtain rfl := h.1 rfl next rfl
        exact (Option.some.inj first).symm
    · exact Followed.append (step_other sound ret) rest

theorem decode_followed (h : Followed 0x0D 0x0A bytes) : Followed '\r' '\n' (({} : TextDecoder).decode bytes).2 := by
  have text := read_followed .initial h
  change Followed '\r' '\n' (({} : TextDecoder).shown (read {} bytes).2)
  cases result : (read {} bytes).2 with
  | nil => trivial
  | cons c rest =>
    rw [result] at text
    rw [TextDecoder.shown]
    split
    · exact text.2
    · exact text

/-- `text.replaceAll("\r\n", "\n")`. -/
def normalize : List Char → List Char
  | [] => []
  | c :: rest => if c = '\r' ∧ rest.head? = some '\n' then normalize rest else c :: normalize rest

/-- Text that was normalized can be normalized again with what comes after it. -/
theorem normalize_append (h : Followed '\r' '\n' a) : normalize (normalize a ++ b) = normalize (a ++ b) := by
  induction a with
  | nil => rfl
  | cons c rest ih =>
    have kept := ih h.2
    by_cases ret : c = '\r'
    · cases rest with
      | nil =>
        rw [normalize, if_neg (by simp)]
        rfl
      | cons d rest =>
        obtain rfl := h.1 ret d rfl
        rw [normalize, if_pos ⟨ret, rfl⟩, kept]
        exact (if_pos ⟨ret, rfl⟩).symm
    · rw [normalize, if_neg (fun both => ret both.1), cons_append, normalize, if_neg (fun both => ret both.1), kept,
        cons_append, normalize, if_neg (fun both => ret both.1)]

theorem normalize_plain (none : '\r' ∉ a) (b : List Char) : normalize (a ++ b) = a ++ normalize b := by
  induction a with
  | nil => rfl
  | cons c rest ih =>
    rw [mem_cons, not_or] at none
    rw [cons_append, normalize, if_neg (fun both => none.1 both.1.symm), ih none.2]
    rfl

/-- Only the last character is a carriage return. -/
def Clean : List Char → Prop
  | [] => True
  | c :: rest => (c = '\r' → rest = []) ∧ Clean rest

theorem clean_normalize (h : Followed '\r' '\n' a) : Clean (normalize a) := by
  induction a with
  | nil => trivial
  | cons c rest ih =>
    have kept := ih h.2
    rw [normalize]
    split
    · exact kept
    · rename_i plain
      refine ⟨fun ret => ?_, kept⟩
      cases rest with
      | nil => rfl
      | cons d rest => exact absurd ⟨ret, congrArg some (h.1 ret d rfl)⟩ plain

theorem Clean.notMem (h : Clean (a ++ b)) (more : b ≠ []) : '\r' ∉ a := by
  induction a with
  | nil => exact not_mem_nil
  | cons c a ih =>
    rw [mem_cons, not_or]
    refine ⟨fun ret => ?_, ih h.2⟩
    have empty := h.1 ret.symm
    exact more (append_eq_nil_iff.1 empty).2

theorem Clean.right (h : Clean (a ++ b)) : Clean b := by
  induction a with
  | nil => exact h
  | cons c a ih => exact ih h.2

/-- Puts a character in front of the first block, or of the rest where there is none. -/
def prepend (c : Char) : List (List Char) × List Char → List (List Char) × List Char
  | ([], rest) => ([], c :: rest)
  | (block :: blocks, rest) => ((c :: block) :: blocks, rest)

/-- What two line feeds end, from the left, and the rest. -/
def split : List Char → List (List Char) × List Char
  | [] => ([], [])
  | [c] => ([], [c])
  | c :: d :: rest =>
    if c = '\n' ∧ d = '\n' then ([] :: (split rest).1, (split rest).2) else prepend c (split (d :: rest))

def joined (blocks : List (List Char)) : List Char := blocks.flatMap (· ++ ['\n', '\n'])

theorem joined_prepend (c : Char) (r : List (List Char) × List Char) :
    joined (prepend c r).1 ++ (prepend c r).2 = c :: (joined r.1 ++ r.2) := by
  obtain ⟨blocks, rest⟩ := r
  cases blocks with
  | nil | cons block blocks => rfl

theorem joined_split (text : List Char) : joined (split text).1 ++ (split text).2 = text := by
  induction text using split.induct with
  | case1 | case2 c => rfl
  | case3 c d rest both ih =>
    obtain ⟨rfl, rfl⟩ := both
    exact congrArg (fun tail => '\n' :: '\n' :: tail) ih
  | case4 c d rest other ih => rw [split, if_neg other, joined_prepend, ih]

/-- The blocks of a text stay its first blocks whatever comes after it. -/
theorem split_joined (text more : List Char) :
    split (joined (split text).1 ++ more) = ((split text).1 ++ (split more).1, (split more).2) := by
  induction text using split.induct with
  | case1 | case2 c => rfl
  | case3 c d rest both ih =>
    obtain ⟨rfl, rfl⟩ := both
    change split ('\n' :: '\n' :: (joined (split rest).1 ++ more)) = _
    rw [split, if_pos ⟨rfl, rfl⟩, ih]
    rfl
  | case4 c d rest other ih =>
    have whole := joined_split (d :: rest)
    rw [split, if_neg other]
    cases result : split (d :: rest) with
    | mk blocks last =>
      rw [result] at ih whole
      cases blocks with
      | nil => rfl
      | cons block blocks =>
        cases tail : joined (block :: blocks) with
        | nil => cases block <;> cases tail
        | cons d' tail' =>
          rw [tail] at ih whole
          obtain rfl : d' = d := (cons.inj whole).1
          change split (c :: (joined (block :: blocks) ++ more)) = _
          rw [tail, cons_append, split, if_neg other]
          rw [cons_append] at ih
          rw [ih]
          rfl

theorem normalize_joined {blocks : List (List Char)} {rest : List Char} (clean : Clean (joined blocks ++ rest)) (more : List Char) :
    normalize (joined blocks ++ more) = joined blocks ++ normalize more := by
  apply normalize_plain
  induction blocks with
  | nil => exact not_mem_nil
  | cons block blocks ih =>
    have text : joined (block :: blocks) = block ++ '\n' :: '\n' :: joined blocks := by simp [joined]
    rw [text, append_assoc] at clean
    have first := clean.notMem (cons_ne_nil _ _)
    have later := ih clean.right.2.2
    rw [text]
    simp [first, later]

/-- The buffer of a reader takes the place of all the text that it has read. -/
theorem split_normalize (h : Followed '\r' '\n' a) (b : List Char) :
    split (normalize (a ++ b)) = ((split (normalize a)).1 ++ (split (normalize ((split (normalize a)).2 ++ b))).1,
      (split (normalize ((split (normalize a)).2 ++ b))).2) := by
  have clean := clean_normalize h
  rw [← normalize_append h]
  have parts := joined_split (normalize a)
  rw [← parts] at clean
  conv_lhs => rw [← parts, append_assoc, normalize_joined clean]
  exact split_joined (normalize a) _

end TextStream
