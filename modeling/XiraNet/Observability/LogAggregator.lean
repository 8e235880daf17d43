import XiraNet.Base
import XiraNet.Lib.Postings
import XiraNet.Lib.Runs
import XiraNet.Lib.Text

/-!
# Log aggregator

`LogAggregator::ingest` of `observability/log_aggregator.rs`, in the steps in which it touches what
calls share: it draws an id, puts it under each word of the message, pushes the entry, evicts the
older half where there are too many, and takes what it evicted out of the index. Any number of
calls overlap.

* `LogState.throughout_indexed`: where evictions keep to the order of the ids and nothing is taken
  out of the index that belongs to an entry, the index is that of the kept entries whenever no call
  is running.
* `LogState.indexed_fails_outOfOrder`: three calls that push in another order than they drew their
  ids.
-/

namespace XiraNet

/-- `LogLevel`. -/
inductive LogLevel
  | trace
  | debug
  | info
  | warn
  | error
  | fatal
  deriving DecidableEq, Repr

/-- `LogEntry`. -/
structure LogEntry where
  id : ℕ
  timestamp : ℕ
  source : String
  level : LogLevel
  message : String
  metadata : List (String × String)
  deriving DecidableEq, Repr

/-- `LogSource`. -/
structure LogSource where
  name : String
  url : String
  logCount : ℕ
  lastReceived : ℕ
  deriving DecidableEq, Repr

/-- The arguments of `ingest`, with the clock. -/
structure IngestArgs where
  source : String
  level : LogLevel
  message : String
  metadata : List (String × String)
  now : ℕ
  deriving DecidableEq, Repr

/-- What the index rests on: the lower case of all of Unicode, and how the map spreads its keys over
shards, each with a lock of its own. -/
structure IndexLib where
  toLowercase : String → String
  shards : ℕ
  shard : String → Fin shards

/-- `MAX_INDEXED_WORD_LEN`. -/
def maxIndexedWordLen : ℕ := 64

/-- `MAX_WORDS_PER_LOG`. -/
def maxWordsPerLog : ℕ := 32

/-- `sanitize_message`. -/
def sanitizeMessage (input : String) : String :=
  String.ofList ((input.toList.take 8192).map fun c =>
    if c = '\r' ∨ c = '\n' ∨ c = '\t' then ' ' else if Text.isControl c then '?' else c)

namespace IndexLib

variable (lib : IndexLib)

/-- A word of a length that is indexed. -/
def isIndexed (word : String) : Bool :=
  2 < word.utf8ByteSize ∧ word.utf8ByteSize ≤ maxIndexedWordLen

/-- The loop over the words of a message, with the ones seen so far. -/
def keywordLoop : List String → List String → List String
  | [], _ => []
  | word :: words, seenWords =>
      if isIndexed word = false then keywordLoop words seenWords
      else if lib.toLowercase word ∈ seenWords then keywordLoop words seenWords
      else if maxWordsPerLog < seenWords.length + 1 then []
      else lib.toLowercase word :: keywordLoop words (lib.toLowercase word :: seenWords)

/-- The words under which `ingest` puts the id of a message, in their order. -/
def keywords (message : String) : List String :=
  lib.keywordLoop (Text.splitWhitespace message) []

/-- The first 32 different words of an entry in lower case, of a length of 3 to 64 bytes. -/
def entryWords (e : LogEntry) : List String :=
  ((((Text.splitWhitespace e.message).filter isIndexed).map lib.toLowercase).eraseDups).take 32

variable {lib}

/-- The loop finds the first words that it has not seen. -/
theorem keywordLoop_eq (words seenWords : List String) :
    lib.keywordLoop words seenWords =
      ((((words.filter isIndexed).map lib.toLowercase).filter (· ∉ seenWords)).eraseDups).take
        (32 - seenWords.length) := by
  induction words generalizing seenWords with
  | nil => simp [keywordLoop]
  | cons word words ih =>
      rw [keywordLoop]
      split
      next hlength => rw [List.filter_cons_of_neg (by simp [hlength]), ih]
      next hlength =>
        rw [List.filter_cons_of_pos (Bool.eq_true_of_not_eq_false hlength), List.map_cons]
        split
        next hseen => rw [List.filter_cons_of_neg (by simp [hseen]), ih]
        next hseen =>
          rw [List.filter_cons_of_pos (by simp [hseen]), List.eraseDups_cons]
          split
          next hfull =>
            -- There are 32 words already.
            have hnone : 32 - seenWords.length = 0 :=
              Nat.sub_eq_zero_of_le (Nat.le_of_lt_succ hfull)
            rw [hnone, List.take_zero]
          next hroom =>
            have hrest : 32 - seenWords.length = 32 - (seenWords.length + 1) + 1 := by
              rw [maxWordsPerLog] at hroom
              omega
            rw [hrest, List.take_succ_cons, ih, List.length_cons, List.filter_filter]
            simp only [List.mem_cons, not_or, Bool.decide_and, decide_not, beq_eq_decide]

/-- The words that `ingest` indexes are the first 32. -/
theorem keywords_eq (e : LogEntry) : lib.keywords e.message = lib.entryWords e := by
  rw [keywords, keywordLoop_eq, entryWords]
  simp

/-- A list in which every element was kept once only has no repetitions. -/
theorem nodup_eraseDups (l : List String) : l.eraseDups.Nodup := by
  induction hlength : l.length using Nat.strong_induction_on generalizing l with
  | _ n ih =>
      cases l with
      | nil => exact .nil
      | cons a l =>
          rw [List.eraseDups_cons, List.nodup_cons]
          refine ⟨by simp, ih _ ?_ _ rfl⟩
          rw [← hlength, List.length_cons]
          exact Nat.lt_succ_of_le (List.length_filter_le _ _)

/-- The words of an entry are different, and 32 at most. -/
theorem entryWords_spec (lib : IndexLib) (e : LogEntry) :
    (lib.entryWords e).Nodup ∧ (lib.entryWords e).length ≤ 32 :=
  ⟨(nodup_eraseDups _).sublist (List.take_sublist _ _), List.length_take_le _ _⟩

end IndexLib

/-- Where a call stands between two of its steps. -/
inductive IngestCall
  /-- The call has drawn its id; these words are left to be indexed. -/
  | indexing (entry : LogEntry) (words : List String)
  /-- The call has pushed its entry, and holds the lock of the logs. -/
  | pushed (entry : LogEntry)
  /-- The call has evicted, and goes through the shards of the index, with the keys that it has
  found without ids. -/
  | pruning (entry : LogEntry) (cutoffId shard : ℕ) (emptyKeys : List String)
  deriving DecidableEq, Repr

/-- The entry of a call that is still to be pushed. -/
def IngestCall.unpushed : IngestCall → Option LogEntry
  | .indexing e _ => some e
  | _ => none

/-- A new call, or the next step of one that is running. -/
inductive LogAction
  | ingest (args : IngestArgs)
  | go (call : IngestCall)
  deriving DecidableEq, Repr

/-- `LogAggregator`, and the calls that are running. -/
structure LogState where
  logs : List LogEntry
  /-- Whether a call holds the lock of the logs. -/
  locked : Bool
  index : Postings String ℕ
  nextId : ℕ
  maxEntries : ℕ
  sources : DashMap String LogSource
  calls : List IngestCall

namespace LogState

/-- `LogAggregator::new`. -/
def initial (maxEntries : ℕ) : LogState := ⟨[], false, ∅, 0, max maxEntries 1, ∅, []⟩

/-- How many entries are dropped. -/
def dropCount (s : LogState) : ℕ := s.logs.length / 2

/-- The id that is drawn next. -/
def freshEntry (s : LogState) (args : IngestArgs) : LogEntry :=
  ⟨s.nextId, args.now, args.source, args.level, sanitizeMessage args.message, args.metadata⟩

/-- A running call goes on, or returns. -/
def move (s : LogState) (call : IngestCall) (next : Option IngestCall) : LogState :=
  { s with calls := next.toList ++ s.calls.erase call }

/-- The source of an entry is counted. -/
def track (s : LogState) (e : LogEntry) : LogState :=
  let src := (s.sources.lookup e.source).getD ⟨e.source, "", 0, 0⟩
  { s with
    sources := s.sources.insert e.source
      { src with logCount := saturatingAddU64 src.logCount 1, lastReceived := e.timestamp } }

/-- The next step of a call. -/
def advance (lib : IndexLib) (s : LogState) (call : IngestCall) : Option LogState :=
  match call with
  | .indexing e (word :: words) =>
      some ({ s with index := s.index.add word e.id }.move call (some (.indexing e words)))
  | .indexing e [] =>
      if s.locked then none
      else
        some ({ s with logs := s.logs ++ [e], locked := true }.move call (some (.pushed e)))
  | .pushed e =>
      if s.maxEntries < s.logs.length then
        -- There is an entry before the cut, since there are two at least.
        s.logs[s.dropCount - 1]?.map fun last =>
          let cutoffId := wrappingAdd last.id 1
          { s with logs := s.logs.drop s.dropCount, locked := false }.move call
            (some (.pruning e cutoffId 0 []))
      else some (({ s with locked := false }.track e).move call none)
  | .pruning e cutoffId shard emptyKeys =>
      if shard < lib.shards then
        let index := s.index.prune (lib.shard · = shard) (cutoffId ≤ ·)
        some ({ s with index }.move call (some (.pruning e cutoffId (shard + 1)
          (emptyKeys ++ index.emptyKeys (lib.shard · = shard)))))
      else
        match emptyKeys with
        | key :: keys =>
            some ({ s with index := s.index.erase key }.move call
              (some (.pruning e cutoffId shard keys)))
        | [] => some ((s.track e).move call none)

/-- One step. -/
def step (lib : IndexLib) (s : LogState) : LogAction → Option LogState
  | .ingest args =>
      let e := s.freshEntry args
      some { s with
        nextId := wrappingAdd s.nextId 1
        calls := .indexing e (lib.keywords e.message) :: s.calls }
  | .go call => if call ∈ s.calls then s.advance lib call else none

/-- Every interleaving of calls. -/
def machine (lib : IndexLib) : Machine LogState LogAction := ⟨step lib⟩

/-- Where no call is running, there are no more entries than allowed, the index is that of their
words, and no larger than 32 times their number. -/
def Indexed (lib : IndexLib) (s : LogState) : Prop :=
  s.calls = [] →
    s.logs.length ≤ s.maxEntries ∧ s.index.Indexes s.logs LogEntry.id lib.entryWords ∧
      s.index.size ≤ 32 * s.logs.length

/-- The entries that are kept, and those that are still to be pushed. -/
def liveEntries (s : LogState) : List LogEntry := s.logs ++ s.calls.filterMap IngestCall.unpushed

/-- An id that belongs to a kept entry, or to one that is still to be pushed. -/
def Live (s : LogState) (id : ℕ) : Prop := ∃ e ∈ s.liveEntries, e.id = id

/-- No id is drawn twice, an entry with words is evicted only up to its id, and nothing is taken
out of the index that belongs to an entry that is kept or still to be pushed. -/
def KeepsOrder (lib : IndexLib) (s : LogState) : LogAction → Prop
  | .ingest _ => s.nextId + 1 < 2 ^ 64
  | .go (.indexing _ _) => True
  | .go (.pushed _) => s.maxEntries < s.logs.length → ∀ last ∈ s.logs[s.dropCount - 1]?,
      ∀ e ∈ s.logs.take s.dropCount, lib.entryWords e ≠ [] → e.id ≤ last.id
  | .go (.pruning _ cutoffId shard emptyKeys) =>
      if shard < lib.shards then
        ∀ p ∈ s.index.entries, (lib.shard p.1 : ℕ) = shard → ∀ id ∈ p.2, id < cutoffId →
          ¬s.Live id
      else ∀ key ∈ emptyKeys.head?, ∀ id ∈ s.index.ids key, ¬s.Live id

instance (s : LogState) (id : ℕ) : Decidable (s.Live id) :=
  inferInstanceAs (Decidable (∃ e ∈ s.liveEntries, e.id = id))

instance (lib : IndexLib) (s : LogState) : (a : LogAction) → Decidable (s.KeepsOrder lib a)
  | .ingest _ => inferInstanceAs (Decidable (_ < _))
  | .go (.indexing _ _) => .isTrue trivial
  | .go (.pushed _) => inferInstanceAs (Decidable (_ → ∀ last ∈ _, ∀ e ∈ _, _))
  | .go (.pruning _ cutoffId shard emptyKeys) =>
      inferInstanceAs (Decidable (if shard < lib.shards then
        ∀ p ∈ s.index.entries, (lib.shard p.1 : ℕ) = shard → ∀ id ∈ p.2, id < cutoffId →
          ¬s.Live id
      else ∀ key ∈ emptyKeys.head?, ∀ id ∈ s.index.ids key, ¬s.Live id))

/-- A call is going to take an id out from under a word. -/
def Dooms (lib : IndexLib) (calls : List IngestCall) (word : String) (id : ℕ) : Prop :=
  ∃ e cutoffId shard emptyKeys, IngestCall.pruning e cutoffId shard emptyKeys ∈ calls ∧
    id < cutoffId ∧ shard ≤ (lib.shard word : ℕ)

/-- A call is going to remove a key. -/
def Removes (calls : List IngestCall) (word : String) : Prop :=
  ∃ e cutoffId shard emptyKeys, IngestCall.pruning e cutoffId shard emptyKeys ∈ calls ∧
    word ∈ emptyKeys

/-- The invariant. -/
structure Inv (lib : IndexLib) (s : LogState) : Prop where
  positive : 1 ≤ s.maxEntries
  length_le : s.logs.length ≤ s.maxEntries ∨
    (s.locked = true ∧ s.logs.length ≤ s.maxEntries + 1)
  /-- The lock is held by a call. -/
  held : s.locked = true → ∃ e, IngestCall.pushed e ∈ s.calls
  nextId_lt : s.nextId < 2 ^ 64
  ids_nodup : (s.liveEntries.map LogEntry.id).Nodup
  ids_lt : ∀ e ∈ s.liveEntries, e.id < s.nextId
  index_nodup : ∀ word, (s.index.ids word).Nodup
  index_lt : ∀ word, ∀ id ∈ s.index.ids word, id < s.nextId
  /-- The id of a kept entry stands under its words. -/
  kept : ∀ e ∈ s.logs, ∀ word, e.id ∈ s.index.ids word ↔ word ∈ lib.entryWords e
  /-- The id of an entry that is still to be pushed stands under the words that are done. -/
  running : ∀ e words, IngestCall.indexing e words ∈ s.calls → words <:+ lib.entryWords e ∧
    ∀ word, e.id ∈ s.index.ids word ↔ word ∈ lib.entryWords e ∧ word ∉ words
  /-- Other ids are going to be taken out by a call. -/
  doomed : ∀ word, ∀ id ∈ s.index.ids word, ¬s.Live id → Dooms lib s.calls word id
  /-- A key without ids is going to be removed by a call. -/
  emptied : ∀ word, s.index.lookup word = some [] → Removes s.calls word

variable {lib : IndexLib} {s t : LogState} {a : LogAction}

/-- Where no call is running, the invariant says that the index is that of the kept entries. -/
theorem Inv.indexed (hs : s.Inv lib) : s.Indexed lib := by
  intro hquiet
  have hlive : s.liveEntries = s.logs := by
    rw [liveEntries, hquiet, List.filterMap_nil, List.append_nil]
  have hnone : ∀ call, call ∉ s.calls := by
    rw [hquiet]
    exact fun _ => List.not_mem_nil
  have hindexes : s.index.Indexes s.logs LogEntry.id lib.entryWords := by
    refine .of_mem_iff (hlive ▸ hs.ids_nodup) hs.index_nodup (fun word id => ?_)
      fun word hempty => ?_
    · constructor
      · intro hid
        by_cases hlives : s.Live id
        · obtain ⟨e, he, rfl⟩ := hlives
          rw [hlive] at he
          exact ⟨e, he, rfl, (hs.kept e he word).mp hid⟩
        · obtain ⟨e, cutoffId, shard, emptyKeys, hcall, -⟩ := hs.doomed word id hid hlives
          exact absurd hcall (hnone _)
      · rintro ⟨e, he, rfl, hword⟩
        exact (hs.kept e he word).mpr hword
    · obtain ⟨e, cutoffId, shard, emptyKeys, hcall, -⟩ := hs.emptied word hempty
      exact hnone _ hcall
  refine ⟨?_, hindexes, hindexes.size_le fun e _ => (lib.entryWords_spec e).2⟩
  rcases hs.length_le with hle | ⟨hlocked, -⟩
  · exact hle
  · obtain ⟨e, hcall⟩ := hs.held hlocked
    exact absurd hcall (hnone _)

section Moves

variable {call call' : IngestCall} {next : Option IngestCall}

/-- The calls after one has moved. -/
theorem mem_calls_move (h : call' ∈ (s.move call next).calls) :
    next = some call' ∨ call' ∈ s.calls.erase call :=
  (List.mem_append.mp h).imp_left Option.mem_toList.mp

/-- What a call has moved to is running. -/
theorem mem_calls_move_self : call' ∈ (s.move call (some call')).calls := List.mem_cons_self

/-- Other calls go on running. -/
theorem mem_calls_move_of_ne (h : call' ∈ s.calls) (hne : call' ≠ call) :
    call' ∈ (s.move call next).calls :=
  List.mem_append_right _ ((List.mem_erase_of_ne hne).mpr h)

/-- A call that takes nothing out of the index leaves that to the others. -/
theorem Dooms.move {word : String} {id : ℕ} (h : Dooms lib s.calls word id)
    (hcall : ∀ e cutoffId shard emptyKeys, call ≠ .pruning e cutoffId shard emptyKeys) :
    Dooms lib (s.move call next).calls word id := by
  obtain ⟨e, cutoffId, shard, emptyKeys, hmem, hlt⟩ := h
  exact ⟨e, cutoffId, shard, emptyKeys, mem_calls_move_of_ne hmem (hcall _ _ _ _).symm, hlt⟩

/-- A call that removes no key leaves that to the others. -/
theorem Removes.move {word : String} (h : Removes s.calls word)
    (hcall : ∀ e cutoffId shard emptyKeys, call ≠ .pruning e cutoffId shard emptyKeys) :
    Removes (s.move call next).calls word := by
  obtain ⟨e, cutoffId, shard, emptyKeys, hmem, hword⟩ := h
  exact ⟨e, cutoffId, shard, emptyKeys, mem_calls_move_of_ne hmem (hcall _ _ _ _).symm, hword⟩

/-- The entries to be pushed, by the call that moves. -/
theorem perm_unpushed (h : call ∈ s.calls) : (s.calls.filterMap IngestCall.unpushed).Perm
    (call.unpushed.toList ++ (s.calls.erase call).filterMap IngestCall.unpushed) := by
  refine ((List.perm_cons_erase h).filterMap _).trans ?_
  rw [List.filterMap_cons]
  cases call.unpushed <;> exact .refl _

/-- The entries to be pushed after a call has moved. -/
theorem unpushed_move (s : LogState) (call : IngestCall) (next : Option IngestCall) :
    (s.move call next).calls.filterMap IngestCall.unpushed =
      (next.bind IngestCall.unpushed).toList ++
        (s.calls.erase call).filterMap IngestCall.unpushed := by
  rw [move, List.filterMap_append]
  cases next with
  | none => rfl
  | some next =>
      rw [Option.toList_some, List.filterMap_cons, List.filterMap_nil, Option.bind_some]
      cases next.unpushed <;> rfl

/-- Where a call keeps its entry, the live entries stay the same. -/
theorem perm_live_move (h : call ∈ s.calls)
    (hnext : next.bind IngestCall.unpushed = call.unpushed) :
    (s.move call next).liveEntries.Perm s.liveEntries := by
  rw [liveEntries, unpushed_move, hnext]
  exact (perm_unpushed h).symm.append_left _

/-- The ids of other live entries are different from the one that a call is going to push. -/
theorem Inv.id_ne (hs : s.Inv lib) {e : LogEntry} (h : call ∈ s.calls)
    (he : call.unpushed = some e) {e' : LogEntry}
    (he' : e' ∈ s.logs ∨ e' ∈ (s.calls.erase call).filterMap IngestCall.unpushed) :
    e'.id ≠ e.id := by
  have hperm : s.liveEntries.Perm
      (e :: (s.logs ++ (s.calls.erase call).filterMap IngestCall.unpushed)) := by
    refine ((perm_unpushed h).append_left s.logs).trans ?_
    rw [he]
    exact List.perm_middle
  have hnodup := (hperm.map LogEntry.id).nodup_iff.mp hs.ids_nodup
  rw [List.map_cons, List.nodup_cons] at hnodup
  intro heq
  exact hnodup.1 (List.mem_map.mpr ⟨e', List.mem_append.mpr he', heq⟩)

/-- The same entries are live where they are only moved. -/
theorem live_iff (h : t.liveEntries.Perm s.liveEntries) {id : ℕ} : t.Live id ↔ s.Live id :=
  exists_congr fun _ => and_congr_left' h.mem_iff

end Moves

/-- A new call. -/
theorem inv_ingest (hs : s.Inv lib) (args : IngestArgs) (hfew : s.nextId + 1 < 2 ^ 64) :
    Inv lib { s with
      nextId := wrappingAdd s.nextId 1
      calls := .indexing (s.freshEntry args) (lib.keywords (s.freshEntry args).message) ::
        s.calls } := by
  have hnext : wrappingAdd s.nextId 1 = s.nextId + 1 := Nat.mod_eq_of_lt hfew
  have hperm : ∀ words, (liveEntries { s with
      nextId := s.nextId + 1
      calls := .indexing (s.freshEntry args) words :: s.calls }).Perm
        (s.freshEntry args :: s.liveEntries) := fun _ => List.perm_middle
  rw [hnext, IndexLib.keywords_eq]
  exact
    { positive := hs.positive
      length_le := hs.length_le
      held := fun hlocked => (hs.held hlocked).imp fun _ hcall => List.mem_cons_of_mem _ hcall
      nextId_lt := hfew
      ids_nodup := by
        refine ((hperm _).map LogEntry.id).nodup_iff.mpr (List.nodup_cons.mpr ⟨?_, hs.ids_nodup⟩)
        rintro hmem
        obtain ⟨e, he, heq⟩ := List.mem_map.mp hmem
        exact absurd heq (hs.ids_lt e he).ne
      ids_lt := by
        intro e he
        rcases List.mem_cons.mp ((hperm _).mem_iff.mp he) with rfl | hold
        · exact Nat.lt_succ_self _
        · exact (hs.ids_lt e hold).trans (Nat.lt_succ_self _)
      index_nodup := hs.index_nodup
      index_lt := fun word id hid => (hs.index_lt word id hid).trans (Nat.lt_succ_self _)
      kept := hs.kept
      running := by
        intro e words hcall
        rcases List.mem_cons.mp hcall with heq | hold
        · -- The id is new, and all words are left.
          cases heq
          refine ⟨List.suffix_rfl, fun word => iff_of_false (fun hid => ?_) fun h => h.2 h.1⟩
          exact lt_irrefl _ (hs.index_lt word _ hid)
        · exact hs.running e words hold
      doomed := by
        intro word id hid hlive
        have hold : ¬s.Live id := fun ⟨e, he, heq⟩ =>
          hlive ⟨e, (hperm _).mem_iff.mpr (List.mem_cons_of_mem _ he), heq⟩
        obtain ⟨e, cutoffId, shard, emptyKeys, hcall, hlt⟩ := hs.doomed word id hid hold
        exact ⟨e, cutoffId, shard, emptyKeys, List.mem_cons_of_mem _ hcall, hlt⟩
      emptied := by
        intro word hempty
        obtain ⟨e, cutoffId, shard, emptyKeys, hcall, hword⟩ := hs.emptied word hempty
        exact ⟨e, cutoffId, shard, emptyKeys, List.mem_cons_of_mem _ hcall, hword⟩ }

section Steps

variable {e : LogEntry}

/-- A call puts its id under a word. -/
theorem inv_index (hs : s.Inv lib) {word : String} {words : List String}
    (h : .indexing e (word :: words) ∈ s.calls) :
    (move { s with index := s.index.add word e.id } (.indexing e (word :: words))
      (some (.indexing e words))).Inv lib := by
  have hperm : (move { s with index := s.index.add word e.id } (.indexing e (word :: words))
      (some (.indexing e words))).liveEntries.Perm s.liveEntries :=
    perm_live_move (s := { s with index := s.index.add word e.id }) h rfl
  obtain ⟨hsuffix, hids⟩ := hs.running e _ h
  -- The word is still to come, so the id does not stand under it yet.
  have hnew : e.id ∉ s.index.ids word := fun hid => ((hids word).mp hid).2 List.mem_cons_self
  have hnodup := List.nodup_cons.mp (hsuffix.sublist.nodup (lib.entryWords_spec e).1)
  have hlive : e ∈ s.liveEntries :=
    List.mem_append_right _ (List.mem_filterMap.mpr ⟨_, h, rfl⟩)
  exact
    { positive := hs.positive
      length_le := hs.length_le
      held := fun hlocked =>
        (hs.held hlocked).imp fun _ hcall => mem_calls_move_of_ne hcall (by simp)
      nextId_lt := hs.nextId_lt
      ids_nodup := (hperm.map _).nodup_iff.mpr hs.ids_nodup
      ids_lt := fun e' he' => hs.ids_lt e' (hperm.mem_iff.mp he')
      index_nodup := fun word' => Postings.nodup_ids_add (hs.index_nodup word') hnew
      index_lt := by
        intro word' id hid
        rcases Postings.mem_ids_add.mp hid with hold | ⟨-, rfl⟩
        · exact hs.index_lt word' id hold
        · exact hs.ids_lt e hlive
      kept := by
        intro e' he' word'
        refine Postings.mem_ids_add.trans (Iff.trans ?_ (hs.kept e' he' word'))
        exact or_iff_left fun hnew => hs.id_ne h rfl (.inl he') hnew.2
      running := by
        intro e' words' hcall
        rcases mem_calls_move hcall with heq | hold
        · cases heq
          refine ⟨(List.suffix_cons word _).trans hsuffix, fun word' => ?_⟩
          refine Postings.mem_ids_add.trans ?_
          rw [hids word', List.mem_cons, not_or]
          constructor
          · rintro (⟨hword', -, hleft⟩ | ⟨rfl, -⟩)
            · exact ⟨hword', hleft⟩
            · exact ⟨hsuffix.subset List.mem_cons_self, hnodup.1⟩
          · rintro ⟨hword', hleft⟩
            by_cases heq : word' = word
            · exact .inr ⟨heq, rfl⟩
            · exact .inl ⟨hword', heq, hleft⟩
        · obtain ⟨hsuffix', hids'⟩ := hs.running e' words' (List.mem_of_mem_erase hold)
          refine ⟨hsuffix', fun word' => Postings.mem_ids_add.trans (.trans ?_ (hids' word'))⟩
          exact or_iff_left fun hnew =>
            hs.id_ne h rfl (.inr (List.mem_filterMap.mpr ⟨_, hold, rfl⟩)) hnew.2
      doomed := by
        intro word' id hid hdead
        rw [live_iff hperm] at hdead
        rcases Postings.mem_ids_add.mp hid with hold | ⟨-, rfl⟩
        · exact (hs.doomed word' id hold hdead).move (by simp)
        · exact absurd ⟨e, hlive, rfl⟩ hdead
      emptied := fun word' hempty =>
        (hs.emptied word' (Postings.lookup_add_eq_nil hempty)).move (by simp) }

/-- A call pushes its entry. -/
theorem inv_push (hs : s.Inv lib) (h : .indexing e [] ∈ s.calls) (hlock : s.locked = false) :
    (move { s with logs := s.logs ++ [e], locked := true } (.indexing e [])
      (some (.pushed e))).Inv lib := by
  have hperm : (move { s with logs := s.logs ++ [e], locked := true } (.indexing e [])
      (some (.pushed e))).liveEntries.Perm s.liveEntries := by
    rw [liveEntries, unpushed_move]
    refine .trans (.of_eq ?_) ((perm_unpushed h).symm.append_left s.logs)
    exact List.append_assoc _ _ _
  exact
    { positive := hs.positive
      length_le := by
        have hle : s.logs.length ≤ s.maxEntries := by
          refine hs.length_le.resolve_right fun hlocked => ?_
          rw [hlock] at hlocked
          cases hlocked.1
        exact .inr ⟨rfl, by simpa [move] using hle⟩
      held := fun _ => ⟨e, mem_calls_move_self⟩
      nextId_lt := hs.nextId_lt
      ids_nodup := (hperm.map _).nodup_iff.mpr hs.ids_nodup
      ids_lt := fun e' he' => hs.ids_lt e' (hperm.mem_iff.mp he')
      index_nodup := hs.index_nodup
      index_lt := hs.index_lt
      kept := by
        intro e' he' word
        rcases List.mem_append.mp he' with hold | hnew
        · exact hs.kept e' hold word
        · -- All words of the entry are done.
          rw [List.mem_singleton.mp hnew]
          refine ((hs.running e [] h).2 word).trans (and_iff_left List.not_mem_nil)
      running := by
        intro e' words hcall
        rcases mem_calls_move hcall with heq | hold
        · cases heq
        · exact hs.running e' words (List.mem_of_mem_erase hold)
      doomed := fun word id hid hdead =>
        (hs.doomed word id hid (mt (live_iff hperm).mpr hdead)).move nofun
      emptied := fun word hempty => (hs.emptied word hempty).move nofun }

/-- A call that has pushed its entry, while there are not too many. -/
theorem inv_kept (hs : s.Inv lib) (h : .pushed e ∈ s.calls)
    (hfew : s.logs.length ≤ s.maxEntries) :
    ((track { s with locked := false } e).move (.pushed e) none).Inv lib := by
  have hperm : ((track { s with locked := false } e).move (.pushed e) none).liveEntries.Perm
      s.liveEntries := perm_live_move (s := track { s with locked := false } e) h rfl
  exact
    { positive := hs.positive
      length_le := .inl hfew
      held := nofun
      nextId_lt := hs.nextId_lt
      ids_nodup := (hperm.map _).nodup_iff.mpr hs.ids_nodup
      ids_lt := fun e' he' => hs.ids_lt e' (hperm.mem_iff.mp he')
      index_nodup := hs.index_nodup
      index_lt := hs.index_lt
      kept := hs.kept
      running := fun e' words hcall =>
        hs.running e' words (List.mem_of_mem_erase ((mem_calls_move hcall).resolve_left nofun))
      doomed := fun word id hid hdead =>
        (hs.doomed word id hid (mt (live_iff hperm).mpr hdead)).move nofun
      emptied := fun word hempty => (hs.emptied word hempty).move nofun }

/-- A call evicts the older half of the entries. -/
theorem inv_drain (hs : s.Inv lib) (h : .pushed e ∈ s.calls) (hmany : s.maxEntries < s.logs.length)
    {last : LogEntry} (hlast : s.logs[s.dropCount - 1]? = some last)
    (horder : ∀ e ∈ s.logs.take s.dropCount, lib.entryWords e ≠ [] → e.id ≤ last.id) :
    (move { s with logs := s.logs.drop s.dropCount, locked := false } (.pushed e)
      (some (.pruning e (wrappingAdd last.id 1) 0 []))).Inv lib := by
  have hlive : (move { s with logs := s.logs.drop s.dropCount, locked := false } (.pushed e)
      (some (.pruning e (wrappingAdd last.id 1) 0 []))).liveEntries.Perm
        (s.logs.drop s.dropCount ++ s.calls.filterMap IngestCall.unpushed) :=
    perm_live_move (s := { s with logs := s.logs.drop s.dropCount, locked := false }) h rfl
  have hsub : (s.logs.drop s.dropCount ++ s.calls.filterMap IngestCall.unpushed).Sublist
      s.liveEntries := (List.drop_sublist _ _).append_right _
  have hcutoff : wrappingAdd last.id 1 = last.id + 1 := by
    have hlt := hs.ids_lt last (List.mem_append_left _ (List.mem_of_getElem? hlast))
    exact Nat.mod_eq_of_lt (by have := hs.nextId_lt; omega)
  exact
    { positive := hs.positive
      length_le := by
        have hpositive := hs.positive
        have hle : s.logs.length ≤ s.maxEntries + 1 := by
          rcases hs.length_le with hle | ⟨-, hle⟩
          · omega
          · exact hle
        refine .inl ?_
        simp only [move, List.length_drop, dropCount]
        omega
      held := nofun
      nextId_lt := hs.nextId_lt
      ids_nodup := (hlive.map _).nodup_iff.mpr (hs.ids_nodup.sublist (hsub.map _))
      ids_lt := fun e' he' => hs.ids_lt e' (hsub.subset (hlive.mem_iff.mp he'))
      index_nodup := hs.index_nodup
      index_lt := hs.index_lt
      kept := fun e' he' => hs.kept e' (List.mem_of_mem_drop he')
      running := by
        intro e' words hcall
        rcases mem_calls_move hcall with heq | hold
        · cases heq
        · exact hs.running e' words (List.mem_of_mem_erase hold)
      doomed := by
        intro word id hid hdead
        by_cases hold : s.Live id
        · -- The entry is evicted, so its id is below the cut.
          obtain ⟨e', he', rfl⟩ := hold
          have hnot : e' ∉ s.logs.drop s.dropCount ++ s.calls.filterMap IngestCall.unpushed :=
            fun hmem => hdead ⟨e', hlive.mem_iff.mpr hmem, rfl⟩
          rw [List.mem_append, not_or] at hnot
          have hlogs : e' ∈ s.logs := (List.mem_append.mp he').resolve_right hnot.2
          rw [← List.take_append_drop s.dropCount s.logs, List.mem_append] at hlogs
          have htake := hlogs.resolve_right hnot.1
          have hword := (hs.kept e' (List.mem_of_mem_take htake) word).mp hid
          refine ⟨e, _, 0, [], mem_calls_move_self, ?_, Nat.zero_le _⟩
          rw [hcutoff]
          exact Nat.lt_succ_of_le (horder e' htake (List.ne_nil_of_mem hword))
        · exact (hs.doomed word id hid hold).move nofun
      emptied := fun word hempty => (hs.emptied word hempty).move nofun }

/-- A call that takes nothing out of the index that is live. -/
theorem inv_takeOut (hs : s.Inv lib) {cutoffId shard : ℕ} {emptyKeys : List String}
    (h : .pruning e cutoffId shard emptyKeys ∈ s.calls) {next : Option IngestCall}
    (hnext : next.bind IngestCall.unpushed = none) {index : Postings String ℕ}
    {sources : DashMap String LogSource}
    (hsub : ∀ word, (index.ids word).Sublist (s.index.ids word))
    (hlive : ∀ word, ∀ id ∈ s.index.ids word, s.Live id → id ∈ index.ids word)
    (hdoomed : ∀ word, ∀ id ∈ index.ids word, Dooms lib s.calls word id →
      Dooms lib (s.move (.pruning e cutoffId shard emptyKeys) next).calls word id)
    (hemptied : ∀ word, index.lookup word = some [] →
      Removes (s.move (.pruning e cutoffId shard emptyKeys) next).calls word) :
    (move { s with index, sources } (.pruning e cutoffId shard emptyKeys) next).Inv lib := by
  have hperm : (move { s with index, sources } (.pruning e cutoffId shard emptyKeys)
      next).liveEntries.Perm s.liveEntries :=
    perm_live_move (s := { s with index, sources }) h hnext
  have hmem : ∀ word id, s.Live id → (id ∈ index.ids word ↔ id ∈ s.index.ids word) :=
    fun word id hid => ⟨fun hnew => (hsub word).subset hnew, fun hold => hlive word id hold hid⟩
  exact
    { positive := hs.positive
      length_le := hs.length_le
      held := fun hlocked => (hs.held hlocked).imp fun _ hcall => mem_calls_move_of_ne hcall nofun
      nextId_lt := hs.nextId_lt
      ids_nodup := (hperm.map _).nodup_iff.mpr hs.ids_nodup
      ids_lt := fun e' he' => hs.ids_lt e' (hperm.mem_iff.mp he')
      index_nodup := fun word => (hs.index_nodup word).sublist (hsub word)
      index_lt := fun word id hid => hs.index_lt word id ((hsub word).subset hid)
      kept := fun e' he' word =>
        (hmem word e'.id ⟨e', List.mem_append_left _ he', rfl⟩).trans (hs.kept e' he' word)
      running := by
        intro e' words hcall
        rcases mem_calls_move hcall with heq | hold
        · rw [heq] at hnext
          cases hnext
        · have hmem' := List.mem_of_mem_erase hold
          obtain ⟨hsuffix, hids⟩ := hs.running e' words hmem'
          refine ⟨hsuffix, fun word => (hmem word e'.id ?_).trans (hids word)⟩
          exact ⟨e', List.mem_append_right _ (List.mem_filterMap.mpr ⟨_, hmem', rfl⟩), rfl⟩
      doomed := fun word id hid hdead => hdoomed word id hid
        (hs.doomed word id ((hsub word).subset hid) (mt (live_iff hperm).mpr hdead))
      emptied := hemptied }

/-- A call that has been to all shards is not the one that is going to take an id out. -/
theorem Dooms.move_of_end {cutoffId shard : ℕ} {emptyKeys : List String}
    {next : Option IngestCall} {word : String} {id : ℕ} (h : Dooms lib s.calls word id)
    (hend : ¬shard < lib.shards) :
    Dooms lib (s.move (.pruning e cutoffId shard emptyKeys) next).calls word id := by
  obtain ⟨e', cutoffId', shard', emptyKeys', hcall, hlt, hle⟩ := h
  refine ⟨e', cutoffId', shard', emptyKeys', mem_calls_move_of_ne hcall ?_, hlt, hle⟩
  rintro heq
  cases heq
  exact hend (hle.trans_lt (lib.shard word).isLt)

/-- A key is removed by the call that moves, if it has found it, or by another one. -/
theorem Removes.cases_move {cutoffId shard : ℕ} {emptyKeys : List String}
    {next : Option IngestCall} {word : String} (h : Removes s.calls word) :
    word ∈ emptyKeys ∨
      Removes (s.move (.pruning e cutoffId shard emptyKeys) next).calls word := by
  obtain ⟨e', cutoffId', shard', emptyKeys', hcall, hword⟩ := h
  by_cases heq : IngestCall.pruning e' cutoffId' shard' emptyKeys' =
      .pruning e cutoffId shard emptyKeys
  · cases heq
    exact .inl hword
  · exact .inr ⟨e', cutoffId', shard', emptyKeys', mem_calls_move_of_ne hcall heq, hword⟩

/-- A call goes through a shard of the index. -/
theorem inv_prune (hs : s.Inv lib) {cutoffId shard : ℕ} {emptyKeys : List String}
    (h : .pruning e cutoffId shard emptyKeys ∈ s.calls)
    (hspares : ∀ word, (lib.shard word : ℕ) = shard → ∀ id ∈ s.index.ids word, id < cutoffId →
      ¬s.Live id) :
    let index := s.index.prune (lib.shard · = shard) (cutoffId ≤ ·)
    (move { s with index } (.pruning e cutoffId shard emptyKeys)
      (some (.pruning e cutoffId (shard + 1)
        (emptyKeys ++ index.emptyKeys (lib.shard · = shard))))).Inv lib := by
  intro index
  have hmem : ∀ word id, id ∈ index.ids word ↔
      id ∈ s.index.ids word ∧ ((lib.shard word : ℕ) = shard → cutoffId ≤ id) := by
    intro word id
    rw [Postings.mem_ids_prune, decide_eq_true_eq, decide_eq_true_eq]
  refine inv_takeOut hs h rfl (Postings.ids_prune_sublist s.index _ _) (fun word id hid hlive => ?_)
    (fun word id hid hdooms => ?_) fun word hempty => ?_
  · refine (hmem word id).mpr ⟨hid, fun hshard => ?_⟩
    by_contra hlt
    exact hspares word hshard id hid (Nat.lt_of_not_le hlt) hlive
  · obtain ⟨e', cutoffId', shard', emptyKeys', hcall, hlt, hle⟩ := hdooms
    by_cases heq : IngestCall.pruning e' cutoffId' shard' emptyKeys' =
        .pruning e cutoffId shard emptyKeys
    · -- This call has not come to the shard of the word yet.
      cases heq
      have hne : (lib.shard word : ℕ) ≠ shard := fun hshard =>
        absurd (((hmem word id).mp hid).2 hshard) (Nat.not_le.mpr hlt)
      exact ⟨e, cutoffId, shard + 1, _, mem_calls_move_self, hlt, by omega⟩
    · exact ⟨e', cutoffId', shard', emptyKeys', mem_calls_move_of_ne hcall heq, hlt, hle⟩
  · by_cases hshard : (lib.shard word : ℕ) = shard
    · refine ⟨e, cutoffId, shard + 1, _, mem_calls_move_self, List.mem_append_right _ ?_⟩
      exact Postings.mem_emptyKeys.mpr ⟨decide_eq_true hshard, hempty⟩
    · -- The list is in another shard, and was empty before.
      have hold : s.index.lookup word = some [] :=
        (Postings.lookup_prune_of_not (by simpa using hshard) _).symm.trans hempty
      refine (hs.emptied word hold).cases_move.elim (fun hword => ?_) fun hother => hother
      exact ⟨e, cutoffId, shard + 1, _, mem_calls_move_self, List.mem_append_left _ hword⟩

/-- A call removes a key that it has found without ids. -/
theorem inv_remove (hs : s.Inv lib) {cutoffId shard : ℕ} {key : String} {keys : List String}
    (h : .pruning e cutoffId shard (key :: keys) ∈ s.calls) (hend : ¬shard < lib.shards)
    (hspares : ∀ id ∈ s.index.ids key, ¬s.Live id) :
    (move { s with index := s.index.erase key } (.pruning e cutoffId shard (key :: keys))
      (some (.pruning e cutoffId shard keys))).Inv lib := by
  refine inv_takeOut hs h rfl (Postings.ids_erase_sublist s.index key)
    (fun word id hid hlive => ?_) (fun word id _ hdooms => hdooms.move_of_end hend)
    fun word hempty => ?_
  · rw [Postings.ids_erase, if_neg]
    · exact hid
    · rintro rfl
      exact hspares id hid hlive
  · obtain ⟨hne, hold⟩ := DashMap.lookup_erase_cases hempty
    refine (hs.emptied word hold).cases_move.elim (fun hword => ?_) fun hother => hother
    exact ⟨e, cutoffId, shard, keys, mem_calls_move_self,
      (List.mem_cons.mp hword).resolve_left hne⟩

/-- A call that has been through the index returns. -/
theorem inv_pruned (hs : s.Inv lib) {cutoffId shard : ℕ}
    (h : .pruning e cutoffId shard [] ∈ s.calls) (hend : ¬shard < lib.shards) :
    ((s.track e).move (.pruning e cutoffId shard []) none).Inv lib :=
  inv_takeOut hs h rfl (fun _ => List.Sublist.refl _) (fun _ _ hid _ => hid)
    (fun _ _ _ hdooms => hdooms.move_of_end hend)
    fun word hempty => (hs.emptied word hempty).cases_move.resolve_left List.not_mem_nil

end Steps

/-- Every step that keeps to the order keeps the invariant. -/
theorem inv_step (hs : s.Inv lib) (hok : s.KeepsOrder lib a) (h : s.step lib a = some t) :
    t.Inv lib := by
  cases a with
  | ingest args =>
      cases h
      exact inv_ingest hs args hok
  | go call =>
      obtain ⟨hmem, h⟩ := Option.ite_none_right_eq_some.mp h
      match call with
      | .indexing e (word :: words) =>
          cases h
          exact inv_index hs hmem
      | .indexing e [] =>
          obtain ⟨hlock, h⟩ := Option.ite_none_left_eq_some.mp h
          cases h
          exact inv_push hs hmem (Bool.eq_false_iff.mpr hlock)
      | .pushed e =>
          simp only [advance] at h
          split at h
          next hmany =>
            obtain ⟨last, hlast, rfl⟩ := Option.map_eq_some_iff.mp h
            exact inv_drain hs hmem hmany hlast (hok hmany last hlast)
          next hfew =>
            cases h
            exact inv_kept hs hmem (Nat.le_of_not_lt hfew)
      | .pruning e cutoffId shard emptyKeys =>
          simp only [advance] at h
          simp only [KeepsOrder] at hok
          split at h
          next hshard =>
            cases h
            rw [if_pos hshard] at hok
            refine inv_prune hs hmem fun word hword id hid => ?_
            obtain ⟨l, hl, hid⟩ := Postings.mem_ids_iff.mp hid
            exact hok ⟨word, l⟩ hl hword id hid
          next hend =>
            rw [if_neg hend] at hok
            cases emptyKeys with
            | nil =>
                cases h
                exact inv_pruned hs hmem hend
            | cons key keys =>
                cases h
                exact inv_remove hs hmem hend (hok key rfl)

/-- A new aggregator. -/
theorem inv_initial (lib : IndexLib) (maxEntries : ℕ) : (initial maxEntries).Inv lib where
  positive := le_max_right _ _
  length_le := .inl (Nat.zero_le _)
  held := nofun
  nextId_lt := Nat.two_pow_pos 64
  ids_nodup := .nil
  ids_lt := nofun
  index_nodup _ := .nil
  index_lt := nofun
  kept := nofun
  running := nofun
  doomed := nofun
  emptied := nofun

/-- Throughout a run whose steps keep to the order, the index is that of the kept entries whenever
no call is running. -/
theorem throughout_indexed (lib : IndexLib) (maxEntries : ℕ) {as : List LogAction}
    (hrun : (machine lib).Runs (KeepsOrder lib) (initial maxEntries) as s) :
    (machine lib).Throughout (Indexed lib) (initial maxEntries) as :=
  hrun.throughout (fun _ hs => hs.indexed) (fun _ _ _ hs hok h => inv_step hs hok h)
    (inv_initial lib maxEntries)

/-- A map with one shard, and messages in ASCII. -/
def asciiLib : IndexLib := ⟨Text.toAsciiLowercase, 1, fun _ => 0⟩

/-- An entry with one word. -/
def errorEntry (id : ℕ) : LogEntry := ⟨id, 0, "api", .error, "Error", []⟩

/-- The start of a call with that entry, up to where it is ready to push. -/
def errorArgs : IngestArgs := ⟨"api", .error, "Error", [], 0⟩

/-- A call draws an id and puts it into the index. -/
def indexSteps (id : ℕ) : List LogAction :=
  [.ingest errorArgs, .go (.indexing (errorEntry id) ["error"])]

/-- A call pushes its entry, and returns. -/
def pushSteps (id : ℕ) : List LogAction :=
  [.go (.indexing (errorEntry id) []), .go (.pushed (errorEntry id))]

/-- Two calls one after the other, on an aggregator for one entry. -/
def oneAfterTheOther : List LogAction :=
  indexSteps 0 ++ pushSteps 0 ++ indexSteps 1 ++ pushSteps 1 ++
    [.go (.pruning (errorEntry 1) 1 0 []), .go (.pruning (errorEntry 1) 1 1 [])]

/-- The second entry is indexed, and the first one is gone. -/
theorem indexed_oneAfterTheOther :
    (machine asciiLib).Throughout (Indexed asciiLib) (initial 1) oneAfterTheOther :=
  throughout_indexed asciiLib 1
    (Machine.runs_of_exec (rfl : (machine asciiLib).exec _ _ _ = some _))

/-- Two calls that push in the other order than they drew their ids, and a third one that evicts. -/
def otherOrder : List LogAction :=
  indexSteps 0 ++ indexSteps 1 ++ pushSteps 1 ++ pushSteps 0 ++ indexSteps 2 ++ pushSteps 2 ++
    [.go (.pruning (errorEntry 2) 2 0 []), .go (.pruning (errorEntry 2) 2 1 [])]

/-- The entry with the id 1 is evicted, and the one with the id 0 leaves the index with it. -/
theorem indexed_fails_outOfOrder :
    ¬∀ (lib : IndexLib) (maxEntries : ℕ) (as : List LogAction) (s : LogState),
      (machine lib).Runs Machine.unrestricted (initial maxEntries) as s → s.Indexed lib := by
  intro hall
  obtain ⟨s, hs, hquiet, hlogs, hids⟩ : ∃ s,
      (machine asciiLib).exec Machine.unrestricted (initial 2) otherOrder = some s ∧
        s.calls = [] ∧ s.logs = [errorEntry 0, errorEntry 2] ∧ s.index.ids "error" = [2] :=
    ⟨_, rfl, rfl, rfl, rfl⟩
  obtain ⟨-, hindexes, -⟩ := hall asciiLib 2 otherOrder s (Machine.runs_of_exec hs) hquiet
  have hlength := (hindexes.ids "error").length_eq
  rw [hlogs, hids] at hlength
  exact absurd hlength (by decide)

end LogState

end XiraNet
