import Mathlib
import CrewFlow.Proofs.Execution.Book
import CrewFlow.Proofs.Execution.Ledger
import CrewFlow.Proofs.Time.Reader
/-!
# The store answers as a book

What a store answers to any sequence of operations is what the book of its records answers. The store keeps
texts and goes by the texts of times where the book goes by the times, so what is written has to be read back as
it was.
-/
set_option autoImplicit false

namespace CrewFlow.Execution

open Json (Value)
open Time (Instant)

/-! ## Runs -/

namespace Store

/-- What is answered to an operation, and the store after it: what is refused changes nothing. -/
def perform (s : Store) : Operation → Answer × Store
  | .insert r =>
    match s.insert r with
    | .ok next => (.done, next)
    | .error cause => (.refused cause, s)
  | .update r =>
    match s.update r with
    | .ok next => (.done, next)
    | .error cause => (.refused cause, s)
  | .get id => (.ofRead .found (s.get id), s)
  | .list workflowId limit => (.ofRead .listed (s.listByWorkflow workflowId limit), s)
  | .save flowId method state => (.done, s.saveState flowId method state)
  | .load flowId => (.ofRead .loaded (s.loadState flowId), s)

/-- The answers to operations one after the other, and the store after them. -/
def run (s : Store) : List Operation → List Answer × Store
  | [] => ([], s)
  | op :: ops =>
    let (answer, next) := s.perform op
    let (answers, last) := next.run ops
    (answer :: answers, last)

end Store

/-! ## What is read back -/

/-- Results and times of a record are read back from their texts: the regular times with a year of four digits. -/
structure Record.Rereads (r : Record) : Prop where
  result : ∀ v ∈ r.result, Store.readValue v = .ok v
  updatedAt : r.updatedAt.Rereads
  finishedAt : ∀ t ∈ r.finishedAt, t.Rereads

/-- The columns of a record: whatever is not a text already is kept as one. -/
structure Row where
  id : String
  workflowId : Option String
  name : String
  status : String
  result : Option String
  createdAt : String
  updatedAt : String
  finishedAt : Option String

def Record.row (r : Record) : Row :=
  { id := r.id, workflowId := r.workflowId, name := r.name, status := r.status.text
    result := r.result.map Value.text, createdAt := r.createdAt.text, updatedAt := r.updatedAt.text
    finishedAt := r.finishedAt.map Instant.text }

namespace Row

def statusOf (text : String) : Except StoreError Status :=
  (Status.ofText text).mapError fun word => .invalid word.message

def valueOf (text : String) : Except StoreError Value :=
  match Json.parse? text with
  | some v => .ok v
  | none => .error .serialization

/-- The wording is that for a year that has no four digits, the only fault of a time that was written. -/
def timeOf (text : String) : Except StoreError Instant :=
  match Instant.read? text with
  | some t => .ok t
  | none => .error (.invalid ("bad timestamp '" ++ text ++ "': input contains invalid characters"))

/-- The record in the columns. -/
def decode (row : Row) : Except StoreError Record := do
  let status ← statusOf row.status
  let result ← row.result.mapM valueOf
  let createdAt ← timeOf row.createdAt
  let updatedAt ← timeOf row.updatedAt
  let finishedAt ← row.finishedAt.mapM timeOf
  return { id := row.id, workflowId := row.workflowId, name := row.name, status, result, createdAt, updatedAt
           finishedAt }

@[simp]
theorem statusOf_text (status : Status) : statusOf status.text = .ok status := by
  cases status <;> rfl

theorem timeOf_text {t : Instant} (reads : t.Rereads) : timeOf t.text = .ok t := by
  rw [timeOf, reads.text]

end Row

/-- What an operation writes is read back. -/
def Operation.Legible : Operation → Prop
  | .insert r => r.Rereads ∧ r.createdAt.Rereads
  | .update r => r.Rereads
  | .save _ _ state => Store.readValue state = .ok state
  | _ => True

namespace Store

section Reading
variable {r : Record}

theorem readTime_of_rereads {t : Instant} (reads : t.Rereads) : readTime t = .ok () := if_pos reads.plain

theorem mapM_readValue {x : Option Value} (reads : ∀ v ∈ x, readValue v = .ok v) :
    x.mapM readValue = .ok x := by
  cases x with
  | none => rfl
  | some v =>
      change (some <$> readValue v) = _
      rw [reads v rfl]
      rfl

theorem decode_row (reads : r.Rereads) (created : r.createdAt.Rereads) : r.row.decode = .ok r := by
  have result : (r.result.map Value.text).mapM Row.valueOf = .ok r.result := by
    rw [← mapM_readValue reads.result]
    cases r.result <;> rfl
  have finished : (r.finishedAt.map Instant.text).mapM Row.timeOf = .ok r.finishedAt := by
    cases given : r.finishedAt with
    | none => rfl
    | some t =>
        change (some <$> Row.timeOf t.text) = _
        rw [Row.timeOf_text (reads.finishedAt t given)]
        rfl
  simp only [Row.decode, Record.row, Row.statusOf_text, result, Row.timeOf_text created,
    Row.timeOf_text reads.updatedAt, finished, bind, Except.bind, pure, Except.pure]

theorem read_of_rereads (reads : r.Rereads) (created : r.createdAt.Rereads) : read r = .ok r := by
  have finished : r.finishedAt.forM readTime = .ok () := by
    cases given : r.finishedAt with
    | none => rfl
    | some t => exact readTime_of_rereads (reads.finishedAt t given)
  simp only [read, mapM_readValue reads.result, readTime_of_rereads created,
    readTime_of_rereads reads.updatedAt, finished, bind, Except.bind, pure, Except.pure]

end Reading

/-! ## Listings -/

/-- Sorting keeps the order of what is neither below nor above the other. -/
theorem pairwise_mergeSort_stable {α : Type} {le : α → α → Bool} {R : α → α → Prop}
    (trans : ∀ a b c, le a b → le b c → le a c) (total : ∀ a b, le a b || le b a) {xs : List α}
    (order : xs.Pairwise R) : (xs.mergeSort le).Pairwise fun a b => le b a → R a b := by
  induction xs with
  | nil => simp
  | cons x xs ih =>
      obtain ⟨first, later⟩ := List.pairwise_cons.mp order
      obtain ⟨front, back, whole, rest, below⟩ := List.mergeSort_cons trans total x xs
      have sorted := ih later
      have old : ∀ y ∈ back, y ∈ xs := by
        intro y member
        apply (List.mergeSort_perm xs le).mem_iff.mp
        rw [rest]
        exact List.mem_append_right front member
      rw [rest] at sorted
      rw [whole]
      obtain ⟨left, right, across⟩ := List.pairwise_append.mp sorted
      refine List.pairwise_append.mpr ⟨left, List.pairwise_cons.mpr ⟨?_, right⟩, ?_⟩
      · exact fun y member _ => first y (old y member)
      · intro y member z there tie
        rcases List.mem_cons.mp there with rfl | there
        · simpa [tie] using below y member
        · exact across y member z there tie

/-- What holds of a store through all legible operations. -/
structure Kept (s : Store) : Prop where
  ids : (s.records.map (·.id)).Nodup
  reads : ∀ r ∈ s.records, r.Rereads ∧ r.createdAt.Rereads
  states : ∀ x ∈ s.snapshots, readValue x.state = .ok x.state

/-- The book of a store. -/
def book (s : Store) : Book := ⟨s.records.map (·.id), s.record?, latestState? s.snapshots⟩

section Listing
variable {s : Store} {workflowId : String}

theorem record?_eq_some_iff (kept : s.Kept) {r : Record} : s.record? r.id = some r ↔ r ∈ s.records := by
  constructor
  · exact List.mem_of_find?_eq_some
  · intro member
    cases found : s.record? r.id with
    | none =>
        have absent := List.find?_eq_none.mp found r member
        simp at absent
    | some old =>
        have same : old = r :=
          List.inj_on_of_nodup_map kept.ids (List.mem_of_find?_eq_some found) member (id_of_record? found)
        rw [same]

theorem mem_newestFirst {r : Record} :
    r ∈ s.newestFirst workflowId ↔ r ∈ s.records ∧ r.workflowId = some workflowId := by
  simp [newestFirst, List.mem_mergeSort]

/-- Of two records that are kept, the one that does not come first by the text was created no later. -/
theorem created_of_text {x y : Record} (left : x.createdAt.Rereads) (right : y.createdAt.Rereads)
    (order : ¬x.createdAt.text < y.createdAt.text) :
    y.createdAt.Before x.createdAt ∨ x.createdAt = y.createdAt := by
  rw [Time.Instant.text_lt_iff left.regular right.regular left.plain right.plain] at order
  rcases Time.Instant.before_or_eq_or_after x.createdAt y.createdAt with before | same | after
  · exact absurd before order
  · exact Or.inr same
  · exact Or.inl after

theorem newest_newestFirst (kept : s.Kept) : s.book.Newest workflowId (s.newestFirst workflowId) := by
  let le (x y : Record) : Bool := !(x.createdAt.text < y.createdAt.text)
  have trans : ∀ x y z, le x y → le y z → le x z := by
    intro x y z first second
    simp only [le, Bool.not_eq_true', decide_eq_false_iff_not, String.not_lt] at first second ⊢
    exact String.le_trans second first
  have total : ∀ x y, le x y || le y x := by
    intro x y
    simp only [le, Bool.or_eq_true, Bool.not_eq_true', decide_eq_false_iff_not, String.not_lt]
    exact String.le_total _ _
  have inserted : s.records.Pairwise fun x y => [x.id, y.id].Sublist (s.records.map (·.id)) :=
    List.pairwise_of_forall_sublist fun pair => pair.map Record.id
  have filed : ((s.records.filter fun r => r.workflowId == some workflowId).reverse).Pairwise
      fun x y => [y.id, x.id].Sublist (s.records.map (·.id)) :=
    List.pairwise_reverse.mpr (inserted.filter _)
  refine ⟨?_, ?_⟩
  · intro r
    rw [mem_newestFirst]
    exact and_congr_left fun _ => (record?_eq_some_iff kept).symm
  · have sorted := (List.pairwise_mergeSort trans total _).and (pairwise_mergeSort_stable trans total filed)
    refine sorted.imp_of_mem ?_
    intro x y left right ⟨order, tie⟩
    have here := (kept.reads x (mem_newestFirst.mp left).1).2
    have there := (kept.reads y (mem_newestFirst.mp right).1).2
    rcases created_of_text here there (by simpa [le] using order) with before | same
    · exact Or.inl before
    · have level : ¬y.createdAt.text < x.createdAt.text := by
        rw [same]
        exact String.lt_irrefl _
      exact Or.inr ⟨same, tie (by simpa only [le, Bool.not_eq_true', decide_eq_false_iff_not] using level)⟩

theorem mapM_read {rs : List Record} (reads : ∀ r ∈ rs, read r = .ok r) : rs.mapM read = .ok rs := by
  induction rs with
  | nil => rfl
  | cons r rs ih =>
      rw [List.mapM_cons, reads r List.mem_cons_self, ih fun x later => reads x (List.mem_cons_of_mem r later)]
      rfl

theorem listByWorkflow_of_kept (kept : s.Kept) (limit : Nat) :
    s.listByWorkflow workflowId limit = .ok ((s.newestFirst workflowId).take limit) := by
  apply mapM_read
  intro r member
  obtain ⟨reads, created⟩ := kept.reads r (mem_newestFirst.mp (List.mem_of_mem_take member)).1
  exact read_of_rereads reads created

end Listing

/-! ## Steps -/

section Steps
variable {s : Store} {r old : Record}

theorem kept_empty : Store.empty.Kept := ⟨List.nodup_nil, by simp [empty], by simp [empty]⟩

theorem latestState?_append (snapshots : List Snapshot) (x : Snapshot) :
    latestState? (snapshots ++ [x]) = Function.update (latestState? snapshots) x.flowId (some x.state) := by
  funext flowId
  by_cases same : flowId = x.flowId
  · simp [latestState?, same]
  · have other : ¬x.flowId = flowId := fun equal => same equal.symm
    simp [latestState?, same, other]

theorem kept_insert (kept : s.Kept) (fresh : s.record? r.id = none) (reads : r.Rereads)
    (created : r.createdAt.Rereads) : ({ s with records := s.records ++ [r] } : Store).Kept := by
  have new : r.id ∉ s.records.map (·.id) := by
    intro old
    obtain ⟨x, member, same⟩ := List.mem_map.mp old
    have other := List.find?_eq_none.mp fresh x member
    simp [same] at other
  refine ⟨?_, ?_, kept.states⟩
  · rw [List.map_append, List.nodup_append]
    exact ⟨kept.ids, List.nodup_singleton _, by simpa using new⟩
  · intro x member
    rcases List.mem_append.mp member with old | last
    · exact kept.reads x old
    · cases List.mem_singleton.mp last
      exact ⟨reads, created⟩

theorem kept_revised (kept : s.Kept) (reads : r.Rereads) : (s.revised r).Kept := by
  refine ⟨by rw [ids_revised]; exact kept.ids, ?_, kept.states⟩
  intro x member
  obtain ⟨old, there, rfl⟩ := List.mem_map.mp member
  obtain ⟨before, created⟩ := kept.reads old there
  split
  · exact ⟨⟨reads.result, reads.updatedAt, reads.finishedAt⟩, created⟩
  · exact ⟨before, created⟩

theorem step_perform {op : Operation} (kept : s.Kept) (legible : op.Legible) :
    (s.perform op).2.Kept ∧ s.book.Step op (s.perform op).1 (s.perform op).2.book := by
  cases op with
  | insert r =>
      obtain ⟨reads, created⟩ := legible
      cases found : s.record? r.id with
      | some old =>
          simp only [perform, insert_of_taken found]
          exact ⟨kept, .taken found⟩
      | none =>
          simp only [perform, insert_of_fresh found]
          refine ⟨kept_insert kept found reads created, ?_⟩
          have record : ({ s with records := s.records ++ [r] } : Store).record? =
              Function.update s.record? r.id (some r) := by
            funext other
            rw [record?_insert (insert_of_fresh found), Function.update_apply]
          have step := Book.Step.inserted (b := s.book) found
          simpa only [book, record, List.map_append, List.map_singleton] using step
  | update r =>
      cases found : s.record? r.id with
      | some old =>
          simp only [perform, update_of_there found]
          refine ⟨kept_revised kept legible, ?_⟩
          have step := Book.Step.updated (b := s.book) found
          have same : (s.revised r).book =
              { s.book with record := Function.update s.record? r.id (some (amended old r)) } := by
            simp only [book, ids_revised, record?_revised found]
            rfl
          rw [same]
          exact step
      | none =>
          simp only [perform, update_of_absent found]
          exact ⟨kept, .missing found⟩
  | get id =>
      -- Whatever is kept reads back as itself, so no reading fails or changes anything.
      have read : s.get id = .ok (s.record? id) := by
        rw [get]
        cases found : s.record? id with
        | none => rfl
        | some r =>
            obtain ⟨reads, created⟩ := kept.reads r (List.mem_of_find?_eq_some found)
            simp only [read_of_rereads reads created]
            rfl
      simp only [perform, read, Answer.ofRead]
      exact ⟨kept, .got id⟩
  | list workflowId limit =>
      simp only [perform, listByWorkflow_of_kept kept, Answer.ofRead]
      exact ⟨kept, .listed (newest_newestFirst kept) limit⟩
  | save flowId method state =>
      refine ⟨⟨kept.ids, kept.reads, ?_⟩, ?_⟩
      · intro x member
        rcases List.mem_append.mp member with old | last
        · exact kept.states x old
        · cases List.mem_singleton.mp last
          exact legible
      · have step := Book.Step.saved (b := s.book) flowId method state
        have same : (s.saveState flowId method state).book =
            { s.book with state := Function.update s.book.state flowId (some state) } := by
          simp only [book, saveState, latestState?_append]
          rfl
        simp only [perform, same]
        exact step
  | load flowId =>
      have read : s.loadState flowId = .ok (latestState? s.snapshots flowId) := by
        apply mapM_readValue
        intro v found
        obtain ⟨x, last, rfl⟩ := Option.map_eq_some_iff.mp found
        exact kept.states x (List.mem_reverse.mp (List.mem_of_find?_eq_some last))
      simp only [perform, read, Answer.ofRead]
      exact ⟨kept, .loaded flowId⟩

/-- A whole run: the book runs the same way and no other. -/
theorem run_book {ops : List Operation} (kept : s.Kept) (legible : ∀ op ∈ ops, op.Legible) :
    (s.run ops).2.Kept ∧
      ∀ answers last, Book.Run s.book ops answers last ↔
        answers = (s.run ops).1 ∧ last = (s.run ops).2.book := by
  induction ops generalizing s with
  | nil =>
      refine ⟨kept, fun answers last => ⟨?_, ?_⟩⟩
      · rintro ⟨⟩
        exact ⟨rfl, rfl⟩
      · rintro ⟨rfl, rfl⟩
        exact .nil _
  | cons op ops ih =>
      obtain ⟨here, step⟩ := step_perform kept (legible op List.mem_cons_self)
      obtain ⟨there, rest⟩ := ih here fun later member => legible later (List.mem_cons_of_mem op member)
      refine ⟨there, fun answers last => ⟨?_, ?_⟩⟩
      · intro runs
        cases runs with
        | cons first others =>
            obtain ⟨rfl, rfl⟩ := first.unique kept.ids step
            obtain ⟨rfl, rfl⟩ := (rest _ _).mp others
            exact ⟨rfl, rfl⟩
      · rintro ⟨rfl, rfl⟩
        exact .cons step ((rest _ _).mpr ⟨rfl, rfl⟩)

end Steps

/-! ## What an operation leaves alone -/

section Frame
variable {s : Store} {op : Operation}

theorem record?_perform {id : String} (other : op.recordId? ≠ some id) :
    (s.perform op).2.record? id = s.record? id := by
  cases op with
  | insert r =>
      have apart : id ≠ r.id := fun same => other (congrArg some same.symm)
      cases inserted : s.insert r with
      | ok next => simp only [perform, inserted, record?_insert inserted, if_neg apart]
      | error cause => simp only [perform, inserted]
  | update r =>
      have apart : id ≠ r.id := fun same => other (congrArg some same.symm)
      cases found : s.record? r.id with
      | some old =>
          simp only [perform, update_of_there found, record?_revised found, Function.update_of_ne apart]
      | none => simp only [perform, update_of_absent found]
  | get wanted => rfl
  | list workflowId limit => rfl
  | save flowId method state => rfl
  | load flowId => rfl

theorem latestState?_perform {flowId : String} (other : op.flowId? ≠ some flowId) :
    latestState? (s.perform op).2.snapshots flowId = latestState? s.snapshots flowId := by
  cases op with
  | insert r =>
      cases found : s.record? r.id with
      | some old => simp only [perform, insert_of_taken found]
      | none => simp only [perform, insert_of_fresh found]
  | update r =>
      cases found : s.record? r.id with
      | some old => simp only [perform, update_of_there found, revised]
      | none => simp only [perform, update_of_absent found]
  | save wanted method state =>
      have apart : flowId ≠ wanted := fun same => other (congrArg some same.symm)
      simp only [perform, saveState, latestState?_append, Function.update_of_ne apart]
  | get id => rfl
  | list workflowId limit => rfl
  | load wanted => rfl

end Frame

/-- A store answers as the book of its records does, and in no other way, its rows hold its records, and an
operation on one id changes nothing that is read of another. -/
theorem store_is_book {ops : List Operation} (legible : ∀ op ∈ ops, op.Legible) :
    (∀ answers last, Book.Run .empty ops answers last ↔
      answers = (Store.empty.run ops).1 ∧ last = (Store.empty.run ops).2.book) ∧
    (∀ r ∈ (Store.empty.run ops).2.records, r.row.decode = .ok r) ∧
    ∀ op : Operation,
      (∀ id, op.recordId? ≠ some id →
        ((Store.empty.run ops).2.perform op).2.get id = (Store.empty.run ops).2.get id) ∧
      ∀ flowId, op.flowId? ≠ some flowId →
        ((Store.empty.run ops).2.perform op).2.loadState flowId = (Store.empty.run ops).2.loadState flowId := by
  obtain ⟨kept, runs⟩ := run_book kept_empty legible
  refine ⟨runs, ?_, fun op => ⟨?_, ?_⟩⟩
  · intro r member
    obtain ⟨reads, created⟩ := kept.reads r member
    exact decode_row reads created
  · intro id other
    simp only [get, record?_perform other]
  · intro flowId other
    simp only [loadState, latestState?_perform other]

/-- A record of the workflow `w` that was created so many milliseconds after the start of the year 2023. -/
def filed (id : String) (millis : Nat) : Record :=
  .pending id ("run of " ++ id) (some "w") (.ofMillis (1672531200000 + millis))

/-- A null result, under another name and for no workflow. -/
def nullified : Record :=
  { filed "a" 90 with name := "other", workflowId := none, status := .completed, result := some .null }

/-- A record and two of one time that are a fraction of a second older, an id that is taken, an update of one
that is there and of one that is not, and flows whose states are saved. -/
def filings : List Operation :=
  [.insert (filed "c" 20), .insert (filed "a" 0), .insert (filed "b" 0), .insert (filed "b" 70),
   .update nullified, .update (filed "d" 0), .list "w" 2, .list "w" 3, .get "a", .get "d",
   .save "f" "begin" (.str "early"), .save "f" "end" (.str "late"), .save "g" "begin" (.str "other"), .load "f"]

theorem filings_are_book :
    (∀ op ∈ filings, op.Legible) ∧
    ∀ answers last, Book.Run .empty filings answers last ↔
      answers =
        [.done, .done, .done, .refused .database, .done, .refused (.invalid "no execution 'd'"),
         .listed [filed "c" 20, filed "b" 0],
         .listed [filed "c" 20, filed "b" 0, amended (filed "a" 0) nullified],
         .found (some (amended (filed "a" 0) nullified)), .found none, .done, .done, .done,
         .loaded (some (.str "late"))] ∧
      last = (Store.empty.run filings).2.book := by
  have time : ∀ millis ∈ [0, 20, 70, 90], (Instant.ofMillis (1672531200000 + millis)).Rereads := by
    intro millis member
    refine Time.Instant.rereads_iff.mpr ⟨Time.Instant.regular_ofMillis _, ?_⟩
    revert millis
    decide +kernel
  have whole : ∀ id, ∀ millis ∈ [0, 20, 70, 90],
      (filed id millis).Rereads ∧ (filed id millis).createdAt.Rereads :=
    fun id millis member => ⟨⟨nofun, time millis member, nofun⟩, time millis member⟩
  have null : nullified.Rereads := by
    refine ⟨?_, time 90 (by decide), nofun⟩
    rintro v ⟨⟩
    rfl
  have legible : ∀ op ∈ filings, op.Legible := by
    simp only [filings, List.forall_mem_cons, List.not_mem_nil, false_imp_iff, implies_true, and_true]
    exact ⟨whole "c" 20 (by decide), whole "a" 0 (by decide), whole "b" 0 (by decide), whole "b" 70 (by decide),
      null, (whole "d" 0 (by decide)).1, trivial, trivial, trivial, trivial, rfl, rfl, rfl, trivial⟩
  let shelf : Store := (Store.empty.run (filings.take 6)).2
  have sorted : shelf.newestFirst "w" = [filed "c" 20, filed "b" 0, amended (filed "a" 0) nullified] := by
    let le (x y : Record) : Bool := !(x.createdAt.text < y.createdAt.text)
    have tie : le (filed "b" 0) (amended (filed "a" 0) nullified) = true := by decide +kernel
    have first : le (filed "b" 0) (filed "c" 20) = false := by decide +kernel
    change [filed "b" 0, amended (filed "a" 0) nullified, filed "c" 20].mergeSort le = _
    simp [List.mergeSort, tie, first]
  have two : shelf.listByWorkflow "w" 2 = .ok [filed "c" 20, filed "b" 0] := by
    rw [listByWorkflow, sorted]
    rfl
  have three : shelf.listByWorkflow "w" 3 =
      .ok [filed "c" 20, filed "b" 0, amended (filed "a" 0) nullified] := by
    rw [listByWorkflow, sorted]
    rfl
  have answers : (Store.empty.run filings).1 =
      [.done, .done, .done, .refused .database, .done, .refused (.invalid "no execution 'd'"),
       .ofRead .listed (shelf.listByWorkflow "w" 2), .ofRead .listed (shelf.listByWorkflow "w" 3),
       .found (some (amended (filed "a" 0) nullified)), .found none, .done, .done, .done,
       .loaded (some (.str "late"))] := rfl
  rw [two, three] at answers
  have book := (store_is_book legible).1
  rw [answers] at book
  exact ⟨legible, book⟩

end Store

end CrewFlow.Execution
