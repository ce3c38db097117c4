import Vimla.Lib.Segments
import Vimla.Semantic.Indexer

/-!
# Which texts have chunks

A text within the byte limit has chunks exactly if it can be cut between its
characters into as many pieces of the size of a chunk as the index takes.
-/

namespace Vimla.Semantic

open Segments List

variable {text : String}

/-- What is promised of the chunks of a text. -/
structure Lossless (text : String) (chunks : List String) : Prop where
  count : chunks ≠ [] ∧ chunks.length ≤ 32
  size : ∀ chunk ∈ chunks, chunk ≠ "" ∧ chunk.utf8ByteSize ≤ 2048
  whole : joined chunks = text.toList

/-- Pieces of a text of which each can be a chunk. -/
structure Cuts (text : String) (pieces : List String) : Prop where
  count : pieces.length ≤ 32
  size : ∀ piece ∈ pieces, piece.utf8ByteSize ≤ 2048
  whole : joined pieces = text.toList

theorem utf8ByteSize_ofList (points : List Char) : (String.ofList points).utf8ByteSize = weight Char.utf8Size points := by
  induction points with
  | nil => rfl
  | cons point points ih =>
    rw [weight_cons, ← ih, ← singleton_append, String.ofList_append, String.utf8ByteSize_append]
    simp

theorem utf8ByteSize_eq (s : String) : s.utf8ByteSize = weight Char.utf8Size s.toList := by
  rw [← utf8ByteSize_ofList, String.ofList_toList]

theorem utf8Size_bounds (point : Char) : 1 ≤ point.utf8Size ∧ point.utf8Size ≤ 4 :=
  ⟨point.utf8Size_pos, point.utf8Size_le_four⟩

theorem fillChunks_eq (points : List Char) (chunk : String) (bytes : Nat) (counted : bytes = chunk.utf8ByteSize) :
    (fillChunks points chunk bytes).map String.toList = fill Char.utf8Size 2048 points chunk.toList := by
  induction points generalizing chunk bytes with
  | nil =>
    rw [fillChunks, fill]
    by_cases empty : chunk = ""
    · simp [empty]
    · have some : chunk.toList ≠ [] := by simpa using empty
      simp [empty, some]
  | cons point points ih =>
    rw [fillChunks, fill, ← utf8ByteSize_eq, counted]
    split
    · have next := ih (String.singleton point) point.utf8Size (by simp)
      simpa using next
    · have next := ih (chunk.push point) (chunk.utf8ByteSize + point.utf8Size) (by simp)
      simpa using next

theorem fillChunks_fill (text : String) :
    (fillChunks text.toList "" 0).map String.toList = fill Char.utf8Size 2048 text.toList [] := by
  have filled := fillChunks_eq text.toList "" 0 rfl
  rwa [show ("" : String).toList = [] from rfl] at filled

theorem fillChunks_size {chunk : String} (mem : chunk ∈ fillChunks text.toList "" 0) :
    chunk ≠ "" ∧ chunk.utf8ByteSize ≤ 2048 := by
  have segment : chunk.toList ∈ fill Char.utf8Size 2048 text.toList [] := by
    rw [← fillChunks_fill]
    exact mem_map_of_mem mem
  have small : ∀ point ∈ text.toList, point.utf8Size ≤ 2048 := by
    intro point _
    have := utf8Size_bounds point
    omega
  constructor
  · rintro rfl
    exact fill_ne_nil small _ segment rfl
  · rw [utf8ByteSize_eq]
    exact fill_fits small (Nat.zero_le _) _ segment

/-- The loop makes no more chunks than a cutting of the text has pieces. -/
theorem fillChunks_least {pieces : List String} (size : ∀ piece ∈ pieces, piece.utf8ByteSize ≤ 2048)
    (whole : joined pieces = text.toList) : (fillChunks text.toList "" 0).length ≤ pieces.length := by
  have small : ∀ point ∈ text.toList, point.utf8Size ≤ 2048 := by
    intro point _
    have := utf8Size_bounds point
    omega
  have cut : Cutting Char.utf8Size 2048 ([] ++ text.toList) (pieces.map String.toList) := by
    constructor
    · rw [← flatMap_def]
      exact whole
    · intro segment mem
      obtain ⟨piece, listed, rfl⟩ := mem_map.1 mem
      rw [← utf8ByteSize_eq]
      exact size piece listed
  have least := fill_least small cut
  rwa [← fillChunks_fill, length_map, length_map] at least

/-- Each chunk but the last has at least 2045 bytes. -/
theorem fillChunks_length (text : String) : (fillChunks text.toList "" 0).length * 2045 ≤ text.utf8ByteSize + 2044 := by
  have filled := @length_fill_mul _ Char.utf8Size 2048 text.toList [] _ 4 (fun point _ => utf8Size_bounds point) (by decide) (.inl rfl)
  rwa [← fillChunks_fill, length_map, nil_append, ← utf8ByteSize_eq] at filled

theorem fillChunks_lossless (solid : Js.trim text ≠ "") (few : (fillChunks text.toList "" 0).length ≤ 32) :
    Lossless text (fillChunks text.toList "" 0) := by
  have whole : joined (fillChunks text.toList "" 0) = text.toList := by
    rw [joined_fillChunks]
    rfl
  refine ⟨⟨?_, few⟩, fun chunk mem => fillChunks_size mem, whole⟩
  intro none
  rw [none] at whole
  have empty : text = "" := String.toList_injective whole.symm
  exact solid (by rw [empty]; rfl)

theorem semanticChunks_eq (solid : Js.trim text ≠ "") (within : text.utf8ByteSize ≤ 65536) : semanticChunks text =
    if (fillChunks text.toList "" 0).length ≤ 32 then fillChunks text.toList "" 0 else [] := by
  rw [semanticChunks, if_neg]
  rintro (blank | long)
  · exact solid blank
  · omega

/-- A text within the byte limit is chunked without loss exactly if some cutting
of it has at most 32 pieces of at most 2048 bytes. Up to 65440 bytes each has one. -/
theorem semanticChunks_lossless (solid : Js.trim text ≠ "") (within : text.utf8ByteSize ≤ 65536) :
    (Lossless text (semanticChunks text) ↔ ∃ pieces, Cuts text pieces) ∧
      (text.utf8ByteSize ≤ 65440 → Lossless text (semanticChunks text)) := by
  rw [semanticChunks_eq solid within]
  refine ⟨⟨?_, ?_⟩, ?_⟩
  · intro lossless
    exact ⟨_, lossless.count.2, fun piece mem => (lossless.size piece mem).2, lossless.whole⟩
  · intro cuttable
    obtain ⟨pieces, count, size, whole⟩ := cuttable
    have few := fillChunks_least size whole
    rw [if_pos (by omega)]
    exact fillChunks_lossless solid (by omega)
  · intro short
    have few := fillChunks_length text
    rw [if_pos (by omega)]
    exact fillChunks_lossless solid (by omega)

theorem semanticChunks_lossless_word :
    (Lossless "word" (semanticChunks "word") ↔ ∃ pieces, Cuts "word" pieces) ∧
      (("word" : String).utf8ByteSize ≤ 65440 → Lossless "word" (semanticChunks "word")) :=
  semanticChunks_lossless (by decide) (by decide)

/-- Signs of three bytes, of which a chunk has room for 682. -/
def euros (count : Nat) : String := String.ofList (List.replicate count '€')

theorem euros_bytes (count : Nat) : (euros count).utf8ByteSize = count * 3 := by
  rw [euros, utf8ByteSize_ofList, weight, map_replicate, sum_replicate]
  rfl

variable {count : Nat}

theorem euros_solid (some : 0 < count) : Js.trim (euros count) ≠ "" := by
  rw [Js.trim_eq_self]
  · intro empty
    have bytes := euros_bytes count
    rw [empty] at bytes
    have none : 0 = count * 3 := bytes
    omega
  · intro c mem
    rw [euros, String.toList_ofList] at mem
    rw [eq_of_mem_replicate mem]
    rfl

theorem eq_replicate_of_mem_euros {chunk : String} (plain : ∀ c ∈ chunk.toList, c ∈ (euros count).toList) :
    chunk = euros chunk.toList.length := by
  have same : chunk.toList = replicate chunk.toList.length '€' := by
    apply eq_replicate_of_mem
    intro c here
    have among := plain c here
    rw [euros, String.toList_ofList] at among
    exact eq_of_mem_replicate among
  rw [euros, ← same, String.ofList_toList]

/-- More of them than 32 chunks have room for. -/
theorem euros_many (more : 32 * 682 < count) : ¬ (fillChunks (euros count).toList "" 0).length ≤ 32 := by
  intro few
  have lossless := fillChunks_lossless (euros_solid (by omega)) few
  generalize fillChunks (euros count).toList "" 0 = chunks at few lossless
  have each : ∀ chunk ∈ chunks, chunk.toList.length ≤ 682 := by
    intro chunk mem
    have same : chunk = euros chunk.toList.length := by
      apply @eq_replicate_of_mem_euros count
      intro c here
      rw [← lossless.whole]
      exact mem_flatMap.2 ⟨chunk, mem, here⟩
    have size := (lossless.size chunk mem).2
    have weighs := euros_bytes chunk.toList.length
    rw [← same] at weighs
    omega
  have total := congrArg length lossless.whole
  rw [joined, length_flatMap, euros, String.toList_ofList, length_replicate] at total
  have bound := sum_le_card_nsmul (chunks.map fun chunk => chunk.toList.length) 682 (by
    intro n mem
    obtain ⟨chunk, listed, rfl⟩ := mem_map.1 mem
    exact each chunk listed)
  rw [length_map, smul_eq_mul] at bound
  omega

/-- The text is within the byte limit, and it takes 33 chunks. -/
theorem semanticChunks_drops_euros :
    Js.trim (euros 21845) ≠ "" ∧ (euros 21845).utf8ByteSize ≤ 65536 ∧ semanticChunks (euros 21845) = [] := by
  have solid : Js.trim (euros 21845) ≠ "" := euros_solid (by decide)
  have within : (euros 21845).utf8ByteSize ≤ 65536 := by
    rw [euros_bytes]
    decide
  exact ⟨solid, within, (semanticChunks_eq solid within).trans (if_neg (euros_many (by decide)))⟩

end Vimla.Semantic
