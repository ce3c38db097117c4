import Vimla.Sync.StreamTables

/-!
# Everything is delivered, once and in order

The pages of a client cover the positions from where it began without a gap,
whatever is written in between.
-/

namespace Vimla.Sync

open List

section
variable {before : Option SyncCursorState} {pages : List Page} {page : Page} {position : Int}

theorem cursorAfter_append (before : Option SyncCursorState) (pages : List Page) (page : Page) :
    cursorAfter before (pages ++ [page]) = some page.cursor := by
  rw [cursorAfter, getLast?_append]
  rfl

theorem cursorAfter_cons (before : Option SyncCursorState) (page : Page) (pages : List Page) :
    cursorAfter before (page :: pages) = cursorAfter (some page.cursor) pages := by
  cases pages with
  | nil => rfl
  | cons next pages => simp [cursorAfter, getLast?_cons]

theorem chained_append : Chained before (pages ++ [page]) ↔
    Chained before pages ∧ Continues (cursorAfter before pages) page := by
  induction pages generalizing before with
  | nil => simp [Chained, cursorAfter]
  | cons first pages ih => rw [cons_append, Chained, Chained, ih, cursorAfter_cons, and_assoc]

theorem Chained.onward (h : Chained before pages) : positionOf before ≤ positionOf (cursorAfter before pages) := by
  induction pages generalizing before with
  | nil => exact le_rfl
  | cons first pages ih =>
    have further := ih h.2
    rw [cursorAfter_cons]
    have first := h.1.onward
    rw [h.1.begins] at first
    exact first.trans further

/-- Every position that has been passed was on one of the pages. -/
theorem Chained.covers (h : Chained before pages) (low : positionOf before < position)
    (high : position ≤ positionOf (cursorAfter before pages)) : (pageOf pages position).isSome := by
  induction pages generalizing before with
  | nil => exact absurd (low.trans_le high) (lt_irrefl _)
  | cons first pages ih =>
    rw [cursorAfter_cons] at high
    rw [pageOf, find?_cons]
    split
    · rfl
    · rename_i outside
      simp only [decide_eq_false_iff_not, not_and, not_le] at outside
      refine ih h.2 ?_ high
      exact outside (h.1.begins ▸ low)

/-- A position that has not been reached is on none. -/
theorem Chained.misses (h : Chained before pages) (beyond : positionOf (cursorAfter before pages) < position) :
    pageOf pages position = none := by
  induction pages generalizing before with
  | nil => rfl
  | cons first pages ih =>
    rw [cursorAfter_cons] at beyond
    have further := h.2.onward
    rw [pageOf, find?_cons_of_neg]
    · exact ih h.2 beyond
    · simp only [decide_eq_true_eq, not_and, not_le]
      intro _
      exact further.trans_lt beyond

end

variable {tables : Tables} {row : Recipient}

theorem mem_between {userId : UserId} {position head : Int} :
    row ∈ tables.between userId position head ↔
      row ∈ tables.recipients ∧ row.userId = userId ∧ position < row.position ∧ row.position ≤ head := by
  rw [Tables.between, between, Js.mem_sort, mem_filter, decide_eq_true_iff]

section
variable {F : Formats} {tables : Tables} {userId : UserId} {p m h : Int}

section
variable (sound : tables.Sound F)
include sound

theorem Tables.Sound.between_pairwise (userId : UserId) (p h : Int) :
    ((tables.between userId p h).map (·.position)).Pairwise (· < ·) := by
  have ordered := sound.ordered userId
  rw [sound.between_eq]
  exact ordered.sublist (List.Sublist.map _ filter_sublist)

theorem Tables.Sound.between_split (low : p ≤ m) (high : m ≤ h) :
    tables.between userId p h = tables.between userId p m ++ tables.between userId m h := by
  rw [sound.between_eq, sound.between_eq, sound.between_eq]
  exact filter_split (fun row : Recipient => row.position) (sound.ordered userId) low high

/-- The rows up to the last one of a page are the page. -/
theorem Tables.Sound.taken {taken rest : List Recipient}
    (split : tables.between userId p h = taken ++ rest) (le : p ≤ h) :
    tables.between userId p (taken.getLast?.elim p (·.position)) = taken ∧
      p ≤ taken.getLast?.elim p (·.position) ∧ taken.getLast?.elim p (·.position) ≤ h ∧
      (taken ≠ [] → p < taken.getLast?.elim p (·.position)) := by
  obtain rfl | ⟨before, row, rfl⟩ := taken.eq_nil_or_concat
  · refine ⟨?_, le_rfl, le, by simp⟩
    rw [eq_nil_iff_forall_not_mem]
    intro row mem
    obtain ⟨_, _, low, high⟩ := mem_between.1 mem
    exact absurd (low.trans_le high) (lt_irrefl _)
  rw [concat_eq_append] at split ⊢
  have last : (before ++ [row]).getLast?.elim p (·.position) = row.position := by simp
  have ordered := sound.between_pairwise userId p h
  rw [split, map_append, pairwise_append] at ordered
  obtain ⟨first, _, later⟩ := ordered
  rw [map_append, pairwise_append] at first
  have within : row ∈ tables.between userId p h := by simp [split]
  obtain ⟨_, _, low, high⟩ := mem_between.1 within
  have upTo : ∀ other ∈ before ++ [row], other.position ≤ row.position := by
    intro other mem
    obtain mem | mem := mem_append.1 mem
    · exact (first.2.2 _ (mem_map_of_mem mem) row.position (by simp)).le
    · rw [mem_singleton.1 mem]
  have beyond : ∀ other ∈ rest, row.position < other.position := fun other mem =>
    later row.position (by simp) _ (mem_map_of_mem mem)
  rw [last]
  refine ⟨?_, low.le, high, fun _ => low⟩
  have parts : tables.between userId p row.position ++ tables.between userId row.position h = before ++ [row] ++ rest :=
    (sound.between_split low.le high).symm.trans split
  have cut := congrArg (filter fun other : Recipient => other.position ≤ row.position) parts
  rw [filter_append, filter_append, filter_eq_self.2, filter_eq_nil_iff.2, append_nil,
    filter_eq_self.2, filter_eq_nil_iff.2, append_nil] at cut
  · exact cut
  · intro other mem
    simpa using beyond other mem
  · intro other mem
    simpa using upTo other mem
  · intro other mem
    simpa using (mem_between.1 mem).2.2.1
  · intro other mem
    simpa using (mem_between.1 mem).2.2.2

theorem Tables.Sound.between_ne_nil (kept : tables.minRetainedPosition userId ≤ p) (less : p < h)
    (reached : h ≤ tables.lastPosition userId) : tables.between userId p h ≠ [] := by
  obtain ⟨row, mem, own, here⟩ := sound.dense userId (p + 1) (by omega) (by omega)
  exact ne_nil_of_mem (mem_between.2 ⟨mem, own, by omega, by omega⟩)

end

end

section
variable (F : Formats) (hmac : Hmac) (secret : Text) (reader : UserId) (start : Option SyncCursorState)

/-- A read goes on from the last page, up to a head that has been committed. -/
structure OpenedSound (w : SyncStream) (read : Opened) : Prop where
  limited : 1 ≤ read.limit ∧ read.limit ≤ maxPageSize
  begins : read.state.position = positionOf (cursorAfter start w.client.pages)
  snapshot : read.state.snapshotHead = snapshotOf (cursorAfter start w.client.pages) read.currentHead
  usable : Usable w.tables reader read.state

def ReadingSound (w : SyncStream) : Prop :=
  match w.client.reading with
  | .idle => True
  | .opened read => OpenedSound reader start w read
  | .scanned read candidates => OpenedSound reader start w read ∧
      candidates = (w.tables.between reader read.state.position read.state.snapshotHead).take (scanLimit read.limit)

structure ClientSound (w : SyncStream) : Prop where
  cursor : w.client.cursor = (cursorAfter start w.client.pages).map (SyncCursorCodec.cursor hmac secret reader)
  usable : ∀ state ∈ cursorAfter start w.client.pages, Usable w.tables reader state
  whole : start = none → w.tables.minRetainedPosition reader = 0
  reading : ReadingSound reader start w
  delivered : StreamDelivered reader start w

end

section
variable {F : Formats} {hmac : Hmac} {secret : Text} {reader : UserId} {start : Option SyncCursorState} {w v : SyncStream}

variable {state : SyncCursorState}

theorem Usable.valid (h : Usable tables reader state) (sound : tables.Sound F) :
    state.valid = true := by
  have bounded := sound.bounded reader
  have kept := h.kept
  have ordered := h.ordered
  have reached := h.reached
  rw [SyncCursorState.valid, decide_eq_true_iff]
  omega

theorem Usable.grows {before after : Tables} (h : Usable before reader state)
    (grows : Grows before after) : Usable after reader state :=
  ⟨grows.kept reader ▸ h.kept, h.ordered, h.reached.trans (grows.later reader)⟩

section
variable (h : ClientSound hmac secret reader start w) (sound : w.tables.Sound F)
include h sound

/-- The position after some pages is a kept one. -/
theorem ClientSound.position :
    w.tables.minRetainedPosition reader ≤ positionOf (cursorAfter start w.client.pages) ∧
      positionOf (cursorAfter start w.client.pages) ≤ w.tables.lastPosition reader := by
  have bounded := sound.bounded reader
  cases current : cursorAfter start w.client.pages with
  | none =>
    have begun : start = none := by
      unfold cursorAfter at current
      cases last : w.client.pages.getLast? with
      | none =>
        rw [last] at current
        exact current
      | some page =>
        rw [last] at current
        cases current
    rw [positionOf, Option.elim_none, h.whole begun]
    omega
  | some state =>
    have usable := h.usable state current
    have kept := usable.kept
    have ordered := usable.ordered
    have reached := usable.reached
    rw [positionOf, Option.elim_some]
    omega

/-- What is written meanwhile does not concern what has been read. -/
theorem ClientSound.grows (grows : Grows w.tables v.tables) (same : v.client = w.client) : ClientSound hmac secret reader start v := by
  have reached := (h.position sound).2
  have delivered := h.delivered
  have opened : ∀ read, OpenedSound reader start w read → OpenedSound reader start v read := by
    intro read opened
    refine ⟨opened.limited, ?_, ?_, opened.usable.grows grows⟩
    · rw [same]
      exact opened.begins
    · rw [same]
      exact opened.snapshot
  constructor
  · rw [same]
    exact h.cursor
  · rw [same]
    exact fun state mem => (h.usable state mem).grows grows
  · intro none
    rw [grows.kept]
    exact h.whole none
  · have reading := h.reading
    unfold ReadingSound at reading ⊢
    rw [same]
    split
    · trivial
    · rename_i read at_
      rw [at_] at reading
      exact opened read reading
    · rename_i read candidates at_
      rw [at_] at reading
      obtain ⟨usable, rows⟩ := reading
      refine ⟨opened read usable, ?_⟩
      rw [grows.settled _ _ _ usable.usable.reached]
      exact rows
  · constructor <;> rw [same]
    · exact delivered.succeeds
    · exact delivered.chained
    · rw [grows.settled _ _ _ reached]
      exact delivered.ordered
    · rw [grows.settled _ _ _ reached]
      exact delivered.complete
    · rw [grows.settled _ _ _ reached]
      exact delivered.deltas

theorem openCursor_ok :
    openCursor hmac secret reader (w.tables.states reader) w.client.cursor =
      .ok ⟨positionOf (cursorAfter start w.client.pages),
        snapshotOf (cursorAfter start w.client.pages) (w.tables.lastPosition reader)⟩ ∧
      Usable w.tables reader ⟨positionOf (cursorAfter start w.client.pages),
        snapshotOf (cursorAfter start w.client.pages) (w.tables.lastPosition reader)⟩ := by
  have position := h.position sound
  have usable : Usable w.tables reader ⟨positionOf (cursorAfter start w.client.pages),
      snapshotOf (cursorAfter start w.client.pages) (w.tables.lastPosition reader)⟩ := by
    cases current : cursorAfter start w.client.pages with
    | none =>
      rw [current] at position
      exact ⟨position.1, position.2, le_rfl⟩
    | some state =>
      have here := h.usable state current
      rw [current] at position
      simp only [snapshotOf, positionOf, Option.elim_some] at position ⊢
      split
      · exact ⟨position.1, position.2, le_rfl⟩
      · exact ⟨position.1, here.ordered, here.reached⟩
  refine ⟨?_, usable⟩
  have kept := usable.kept
  have ordered := usable.ordered
  have reached := usable.reached
  have fresh : ¬ (positionOf (cursorAfter start w.client.pages) < w.tables.minRetainedPosition reader ∨
      positionOf (cursorAfter start w.client.pages) > w.tables.lastPosition reader ∨
      snapshotOf (cursorAfter start w.client.pages) (w.tables.lastPosition reader) > w.tables.lastPosition reader) := by
    simp only at kept ordered reached
    omega
  rw [h.cursor]
  cases current : cursorAfter start w.client.pages with
  | none =>
    rw [current] at fresh
    exact if_neg fresh
  | some state =>
    rw [current] at fresh
    have decoded : SyncCursorCodec.decode hmac secret reader (SyncCursorCodec.cursor hmac secret reader state) =
        some state := by
      rw [SyncCursorCodec.decode_cursor ((h.usable state current).valid sound) reader, if_pos rfl]
    simp only [openCursor, Option.map_some, decoded, pure_bind]
    exact if_neg fresh

theorem ClientSound.findState (limit : Nat) :
    ClientSound hmac secret reader start (w.findState hmac secret reader limit) := by
  unfold SyncStream.findState
  split
  · split
    · rename_i limited
      obtain ⟨opens, usable⟩ := openCursor_ok h sound
      rw [opens]
      exact ⟨h.cursor, h.usable, h.whole, ⟨limited, rfl, rfl, usable⟩, h.delivered.succeeds, h.delivered.chained,
        h.delivered.ordered, h.delivered.complete, h.delivered.deltas⟩
    · exact h
  · exact h

theorem ClientSound.findRecipients :
    ClientSound hmac secret reader start (w.findRecipients reader) := by
  have reading := h.reading
  unfold ReadingSound at reading
  unfold SyncStream.findRecipients
  split
  · rename_i read at_
    rw [at_] at reading
    have supported : ((w.tables.between reader read.state.position read.state.snapshotHead).take
        (scanLimit read.limit)).all (fun row => assertSupportedSyncEvent row.event) = true := by
      rw [all_eq_true]
      intro row mem
      have readable := sound.readable row (mem_between.1 (mem_of_mem_take mem)).1
      rw [DurableEvent.readable, Bool.and_eq_true] at readable
      exact readable.1
    rw [if_pos supported]
    exact ⟨h.cursor, h.usable, h.whole, ⟨⟨reading.limited, reading.begins, reading.snapshot, reading.usable⟩, rfl⟩,
      h.delivered.succeeds, h.delivered.chained, h.delivered.ordered, h.delivered.complete, h.delivered.deltas⟩
  · exact h

end

/-- The chats of the candidates are the only ones that count. -/
theorem eligible_candidates {candidates : List Recipient} {members : String → Bool}
    (mem : row ∈ candidates) :
    eligible (fun id => id ∈ directChatIds candidates ∧ members id) row.event = eligible members row.event := by
  unfold eligible
  cases kind : row.event.eventType with
  | DIRECT_MESSAGE_DELETED => rfl
  | DIRECT_MESSAGE_CREATED | DIRECT_READ_UPDATED =>
    have looked : row.event.scopeId ∈ directChatIds candidates := by
      rw [directChatIds, mem_dedup]
      exact mem_map_of_mem (mem_filter.2 ⟨mem, by simp [kind]⟩)
    simp [looked]

/-- A page holds the eligible rows up to where it ends. -/
structure Answers (hmac : Hmac) (secret : Text) (reader : UserId) (tables : Tables) (members : String → Bool) (read : Opened) (response : SyncPage) (next : Int) : Prop where
  onward : read.state.position ≤ next
  within : next ≤ read.state.snapshotHead
  more : response.hasMore = decide (next < read.state.snapshotHead)
  advances : response.hasMore = true → read.state.position < next
  cursor : response.nextCursor = SyncCursorCodec.cursor hmac secret reader ⟨next, read.state.snapshotHead⟩
  deltas : response.deltas = deltasOf members (tables.between reader read.state.position next)

theorem respond_ok (hmac : Hmac) (secret : Text) {read : Opened} (opened : OpenedSound reader start w read) (sound : w.tables.Sound F)
    (members : String → Bool) :
    ∃ response next, respond F hmac secret reader read.limit read.state
        ((w.tables.between reader read.state.position read.state.snapshotHead).take (scanLimit read.limit)) members =
      .ok (response, next) ∧
        Answers hmac secret reader w.tables members read response next := by
  have usable := opened.usable
  obtain ⟨least, most⟩ := opened.limited
  have ordered := usable.ordered
  generalize rows : w.tables.between reader read.state.position read.state.snapshotHead = page
  have readable : ∀ row ∈ page.take (scanLimit read.limit), row.event.readable F = true := by
    intro row mem
    rw [← rows] at mem
    exact sound.readable row (mem_between.1 (mem_of_mem_take mem)).1
  have filled : read.state.position < read.state.snapshotHead → page.take (scanLimit read.limit) ≠ [] := by
    intro less empty
    have some_ := sound.between_ne_nil usable.kept less usable.reached
    rw [take_eq_nil_iff] at empty
    obtain none | none := empty
    · simp only [scanLimit, maxScanPerPage] at none
      omega
    · exact some_ (rows.trans none)
  obtain ⟨taken, rest, split, takes, few, collected⟩ := collect_prefix
    (fun id => id ∈ directChatIds (page.take (scanLimit read.limit)) ∧ members id) [] read.state.position readable least
  have whole : w.tables.between reader read.state.position read.state.snapshotHead =
      taken ++ (rest ++ page.drop (scanLimit read.limit)) := by
    rw [← append_assoc, ← split, take_append_drop, rows]
  obtain ⟨exactly, onward, within, advances⟩ := sound.taken whole ordered
  have same : deltasOf (fun id => id ∈ directChatIds (page.take (scanLimit read.limit)) ∧ members id) taken =
      deltasOf members taken := by
    rw [deltasOf, deltasOf]
    refine congrArg _ (filter_congr fun row mem => eligible_candidates ?_)
    rw [split]
    exact mem_append_left _ mem
  simp only [nil_append] at few collected
  rw [same] at few collected
  generalize taken.getLast?.elim read.state.position (·.position) = next at exactly onward within advances collected
  have goes : next < read.state.snapshotHead → read.state.position < next := fun less =>
    advances (takes (filled (by omega)))
  have proceeds : ¬ (page.take (scanLimit read.limit) = [] ∧ next < read.state.snapshotHead) := by
    rintro ⟨empty, less⟩
    exact filled (by omega) empty
  have valid : SyncCursorState.valid ⟨next, read.state.snapshotHead⟩ = true := by
    have further : Usable w.tables reader ⟨next, read.state.snapshotHead⟩ :=
      ⟨usable.kept.trans onward, within, usable.reached⟩
    exact further.valid sound
  refine ⟨⟨deltasOf members taken, SyncCursorCodec.cursor hmac secret reader ⟨next, read.state.snapshotHead⟩,
    next < read.state.snapshotHead⟩, next, ?_, ⟨onward, within, rfl, ?_, rfl, ?_⟩⟩
  · simp only [respond, collected, if_neg proceeds, SyncCursorCodec.encode_valid valid,
      if_neg (show ¬ (deltasOf members taken).length > maxPageSize by omega)]
    rfl
  · intro more
    exact goes (of_decide_eq_true more)
  · rw [exactly]

theorem ClientSound.findMembers (h : ClientSound hmac secret reader start w) (sound : w.tables.Sound F) :
    ClientSound hmac secret reader start (w.findMembers F hmac secret reader) := by
  have reading := h.reading
  have delivered := h.delivered
  unfold ReadingSound at reading
  unfold SyncStream.findMembers
  split
  · rename_i read candidates at_
    rw [at_] at reading
    obtain ⟨opened, rfl⟩ := reading
    obtain ⟨response, next, responds, answers⟩ := respond_ok hmac secret opened sound
      (w.tables.members reader)
    rw [responds]
    have continues : Continues (cursorAfter start w.client.pages) ⟨read, w.tables.members reader, response, next⟩ :=
      ⟨opened.begins, opened.snapshot, answers.onward, answers.within, answers.more, answers.advances⟩
    have chained := chained_append.2 ⟨delivered.chained, continues⟩
    have after := cursorAfter_append start w.client.pages ⟨read, w.tables.members reader, response, next⟩
    have further : positionOf (cursorAfter start w.client.pages) ≤ next := by
      rw [← opened.begins]
      exact answers.onward
    have parts : w.tables.between reader (positionOf start) next =
        w.tables.between reader (positionOf start) (positionOf (cursorAfter start w.client.pages)) ++
          w.tables.between reader (positionOf (cursorAfter start w.client.pages)) next :=
      sound.between_split delivered.chained.onward further
    have old : ∀ row ∈ w.tables.between reader (positionOf start) (positionOf (cursorAfter start w.client.pages)),
        eligibleWhenRead (w.client.pages ++ [⟨read, w.tables.members reader, response, next⟩]) row =
          eligibleWhenRead w.client.pages row := by
      intro row mem
      obtain ⟨_, _, low, high⟩ := mem_between.1 mem
      obtain ⟨page, found⟩ := Option.isSome_iff_exists.1 (delivered.chained.covers low high)
      rw [eligibleWhenRead, eligibleWhenRead, pageOf, find?_append, ← pageOf, found]
      rfl
    have new : ∀ row ∈ w.tables.between reader (positionOf (cursorAfter start w.client.pages)) next,
        eligibleWhenRead (w.client.pages ++ [⟨read, w.tables.members reader, response, next⟩]) row =
          eligible (w.tables.members reader) row.event := by
      intro row mem
      obtain ⟨_, _, low, high⟩ := mem_between.1 mem
      rw [eligibleWhenRead, pageOf, find?_append, ← pageOf, delivered.chained.misses low, Option.none_or,
        find?_cons_of_pos]
      · simp
      · simpa only [decide_eq_true_eq, opened.begins] using ⟨low, high⟩
    refine ⟨?_, ?_, h.whole, trivial, ⟨delivered.succeeds, chained, ?_, ?_, ?_⟩⟩
    · rw [after]
      exact congrArg some answers.cursor
    · rw [after]
      intro state mem
      cases mem
      exact ⟨opened.usable.kept.trans answers.onward, answers.within, opened.usable.reached⟩
    · exact sound.between_pairwise _ _ _
    · rw [after]
      intro position low high
      have kept := (h.position sound)
      by_cases before : position ≤ positionOf (cursorAfter start w.client.pages)
      · obtain ⟨row, mem, here⟩ := delivered.complete position low before
        refine ⟨row, ?_, here⟩
        change row ∈ w.tables.between reader (positionOf start) next
        rw [parts]
        exact mem_append_left _ mem
      · have reached := opened.usable.reached
        have within := answers.within
        obtain ⟨row, mem, own, here⟩ := sound.dense reader position (by omega) (high.trans (within.trans reached))
        exact ⟨row, mem_between.2 ⟨mem, own, here ▸ low, here ▸ high⟩, here⟩
    · rw [after]
      change _ = ((w.tables.between reader (positionOf start) next).filter _).map _
      rw [parts, filter_append, map_append, filter_congr old, filter_congr new, flatMap_append,
        delivered.deltas]
      simp only [flatMap_cons, flatMap_nil, append_nil, answers.deltas, opened.begins]
      rfl
  · exact h

theorem ClientSound.step (h : ClientSound hmac secret reader start w) (sound : StreamSound F w) (ev : StreamEvent) :
    ClientSound hmac secret reader start (w.step F hmac secret reader ev) := by
  have grows := (sound.step hmac secret reader ev).2
  cases ev with
  | begin t =>
    refine h.grows sound.tables grows ?_
    simp only [SyncStream.step]
    split <;> rfl
  | directMessageCreated t input | directReadUpdated t input eventId =>
    exact h.grows sound.tables grows (w.client_write t _)
  | upsert t => exact h.grows sound.tables grows (w.client_upsert t)
  | create t => exact h.grows sound.tables grows (w.client_create t)
  | commit t => exact h.grows sound.tables grows (w.client_commit t)
  | abort t | membership userId conversationId joined => exact h.grows sound.tables grows rfl
  | findState limit => exact h.findState sound.tables limit
  | findRecipients => exact h.findRecipients sound.tables
  | findMembers => exact h.findMembers sound.tables

theorem StreamStart.clientSound (start : StreamStart F) (hmac : Hmac) (secret : Text) :
    ClientSound hmac secret start.reader start.cursor (start.stream hmac secret) := by
  have same : cursorAfter start.cursor (start.stream hmac secret).client.pages = start.cursor := rfl
  refine ⟨rfl, start.usable, start.whole, trivial, ⟨rfl, trivial, ?_, ?_, ?_⟩⟩
  · exact start.sound.between_pairwise _ _ _
  · rw [same]
    omega
  · have none : start.tables.between start.reader (positionOf start.cursor) (positionOf start.cursor) = [] := by
      rw [eq_nil_iff_forall_not_mem]
      intro row mem
      obtain ⟨_, _, low, high⟩ := mem_between.1 mem
      omega
    rw [same]
    change [] = ((start.tables.between start.reader _ _).filter _).map _
    rw [none]
    rfl

end

def anyFormat : Formats := ⟨fun _ => true, fun _ _ => true, fun _ => rfl⟩

/-- Signatures that are of one message alone. -/
def signsOnly (known : Base64.Bytes) : Hmac :=
  ⟨fun _ message => List.replicate 32 (if message = known then 7 else 0), fun _ _ => length_replicate⟩

def alice : UserId := ⟨['a'], by decide⟩

def noTables : Tables := ⟨fun _ => none, [], fun _ _ => false⟩

theorem noTables_sound : noTables.Sound anyFormat := by
  refine ⟨fun _ => ⟨le_rfl, le_rfl, (by unfold MAX_BIGINT_64; omega : (0 : Int) ≤ MAX_BIGINT_64)⟩, fun _ => by simp [noTables], by simp [noTables],
    fun _ position low high => ?_, by simp [noTables]⟩
  simp only [noTables, Tables.minRetainedPosition, Tables.lastPosition, Option.elim_none] at low high
  omega

theorem noTables_usable : ∀ state ∈ (none : Option SyncCursorState), Usable noTables alice state := by simp

def nothingWritten : StreamStart anyFormat where
  tables := noTables
  sound := noTables_sound
  reader := alice
  cursor := none
  usable := noTables_usable
  whole _ := rfl

def aliceMessage : Base64.Bytes := SyncCursorCodec.message alice (SyncCursorState.mk 1 2).payload

end Vimla.Sync
