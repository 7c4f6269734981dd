import Mathlib
import CrewFlow.Remote.ToolServer
/-!
# Fresh tool lists

Several callers ask for the tools of servers at the same time. Each one looks among the kept lists, sends
a request when it finds none, and keeps what the reply lists. In between the list of a server, or every
list, may be dropped. A caller that comes after that is told a list that was asked for after it, unless a
reply from before was still on its way to be kept: it is then kept behind the drop.
-/
set_option autoImplicit false

namespace CrewFlow.Remote

open Tool (ToolError)

namespace Listings

theorem get?_empty (server : String) : empty.get? server = none := rfl

theorem get?_drop (l : Listings) (dropped server : String) :
    (l.drop dropped).get? server = if server = dropped then none else l.get? server := by
  obtain ⟨entries⟩ := l
  simp only [get?, drop]
  induction entries with
  | nil => simp
  | cons entry entries ih =>
      by_cases gone : entry.1 = dropped
      · rw [List.filter_cons_of_neg (by simpa using gone), ih]
        by_cases same : server = dropped
        · rw [if_pos same, if_pos same]
        · have other : (server == entry.1) = false := by simpa [gone] using same
          rw [if_neg same, if_neg same, List.lookup_cons, other]
      · rw [List.filter_cons_of_pos (by simpa using gone), List.lookup_cons, List.lookup_cons]
        cases here : server == entry.1 with
        | true =>
            have named : server = entry.1 := by simpa using here
            rw [if_neg (named ▸ gone)]
        | false => exact ih

theorem get?_keep (l : Listings) (server : String) (offers : List Offer) (asked : String) :
    (l.keep server offers).get? asked = if asked = server then some offers else l.get? asked := by
  by_cases same : asked = server
  · subst same
    rw [if_pos rfl, get?, keep, List.lookup_cons_self]
  · have other : (asked == server) = false := by simpa using same
    have kept := l.get?_drop server asked
    rw [if_neg same] at kept
    rw [if_neg same, get?, keep, List.lookup_cons, other]
    exact kept

end Listings

/-! ## One caller -/

/-- How far a caller has come who asks for the tools of a server. `told` is the end. -/
inductive Inquiry where
  | asked
  | missed (address : String)
  | answered (address : String) (reply : Except String Reply)
  | told (found : Except ToolError (String × List Offer))

/-- What a look among the kept lists comes to. -/
def Directory.look (d : Directory) (server : String) (kept : Listings) : Inquiry :=
  match d.addresses.lookup server, kept.get? server with
  | none, _ => .told (.error (.connectivity ("unknown tool server '" ++ server ++ "'")))
  | some address, some offers => .told (.ok (address, offers))
  | some address, none => .missed address

/-- What a reply comes to: what its caller is told, and the lists that are kept then. -/
def closing (server address : String) (reply : Except String Reply) (kept : Listings) :
    Except ToolError (String × List Offer) × Listings :=
  match offersOf server reply with
  | .ok offers => (.ok (address, offers), kept.keep server offers)
  | .error e => (.error e, kept)

section Steps
variable {d : Directory} {server address : String} {kept : Listings}

theorem offers_of_told {m : Type → Type} [Monad m] (transport : Transport m)
    {found : Except ToolError (String × List Offer)} (told : d.look server kept = .told found) :
    d.offers transport server kept = return (found, kept) := by
  cases known : d.addresses.lookup server with
  | none =>
      simp only [Directory.look, known] at told
      cases told
      simp only [Directory.offers, known]
  | some address =>
      cases held : kept.get? server with
      | some offers =>
          simp only [Directory.look, known, held] at told
          cases told
          simp only [Directory.offers, known, held]
      | none =>
          simp only [Directory.look, known, held] at told
          cases told

theorem look_eq_missed (missed : d.look server kept = .missed address) :
    d.addresses.lookup server = some address ∧ kept.get? server = none := by
  rw [Directory.look] at missed
  split at missed
  · cases missed
  · cases missed
  · cases missed
    exact ⟨by assumption, by assumption⟩

theorem offers_of_missed {m : Type → Type} [Monad m] [LawfulMonad m] (transport : Transport m)
    (missed : d.look server kept = .missed address) :
    d.offers transport server kept = do
      return closing server address (← transport ⟨.get, address ++ "/tools", none, none⟩) kept := by
  obtain ⟨known, fresh⟩ := look_eq_missed missed
  simp only [Directory.offers, known, fresh]
  refine bind_congr ?_
  intro reply
  rw [closing]
  cases offersOf server reply <;> rfl

theorem look_eq_told {offers : List Offer} (told : d.look server kept = .told (.ok (address, offers))) :
    kept.get? server = some offers := by
  rw [Directory.look] at told
  split at told
  · cases told
  · cases told
    assumption
  · cases told

theorem look_of_kept {offers : List Offer} (known : d.addresses.lookup server = some address)
    (hit : kept.get? server = some offers) : d.look server kept = .told (.ok (address, offers)) := by
  simp only [Directory.look, known, hit]

theorem look_ne_answered (address : String) (reply : Except String Reply) :
    d.look server kept ≠ .answered address reply := by
  rw [Directory.look]
  split <;> simp

theorem closing_of_failed {reply : Except String Reply} {e : ToolError}
    (failed : offersOf server reply = .error e) (address : String) (kept : Listings) :
    closing server address reply kept = (.error e, kept) := by
  simp only [closing, failed]

theorem closing_of_read {reply : Except String Reply} {offers : List Offer}
    (read : offersOf server reply = .ok offers) (address : String) (kept : Listings) :
    closing server address reply kept = (.ok (address, offers), kept.keep server offers) := by
  simp only [closing, read]

end Steps

/-! ## All callers -/

/-- A caller and the server whose tools it asks for. -/
structure Caller where
  server : String
  inquiry : Inquiry

/-- The kept lists, and the callers in the order in which they came. -/
structure Counter where
  kept : Listings
  callers : List Caller

/-- A new caller, one of the three steps of a caller, or a drop. -/
inductive Event where
  | ask (server : String)
  | look (caller : Nat)
  | fetch (caller : Nat) (reply : Except String Reply)
  | close (caller : Nat)
  | invalidate (server : String)
  | clear

/-- An event that drops the list of a server. -/
def Event.Drops (server : String) (event : Event) : Prop := event = .invalidate server ∨ event = .clear

namespace Counter

def empty : Counter := ⟨.empty, []⟩

/-- The counter after an event; none when that cannot happen now. -/
def step? (d : Directory) (b : Counter) : Event → Option Counter
  | .ask server => some { b with callers := b.callers ++ [⟨server, .asked⟩] }
  | .look k =>
    match b.callers[k]? with
    | some ⟨server, .asked⟩ =>
      some { b with callers := b.callers.set k ⟨server, d.look server b.kept⟩ }
    | _ => none
  | .fetch k reply =>
    match b.callers[k]? with
    | some ⟨server, .missed address⟩ =>
      some { b with callers := b.callers.set k ⟨server, .answered address reply⟩ }
    | _ => none
  | .close k =>
    match b.callers[k]? with
    | some ⟨server, .answered address reply⟩ =>
      let (found, kept) := closing server address reply b.kept
      some ⟨kept, b.callers.set k ⟨server, .told found⟩⟩
    | _ => none
  | .invalidate server => some { b with kept := b.kept.drop server }
  | .clear => some { b with kept := .empty }

/-- The counter after several events. -/
def run? (d : Directory) : List Event → Counter → Option Counter
  | [], b => some b
  | event :: events, b => (b.step? d event).bind (run? d events)

theorem run?_append (d : Directory) (events rest : List Event) (b : Counter) :
    run? d (events ++ rest) b = (run? d events b).bind (run? d rest) := by
  induction events generalizing b with
  | nil => rfl
  | cons event events ih =>
      rw [List.cons_append, run?, run?, Option.bind_assoc]
      exact congrArg _ (funext ih)

/-- What an event does to a counter. -/
inductive Move (d : Directory) (b : Counter) : Event → Counter → Prop where
  | asked (server : String) :
      Move d b (.ask server) { b with callers := b.callers ++ [⟨server, .asked⟩] }
  | looked {k : Nat} {server : String} (standing : b.callers[k]? = some ⟨server, .asked⟩) :
      Move d b (.look k) { b with callers := b.callers.set k ⟨server, d.look server b.kept⟩ }
  | fetched {k : Nat} {server address : String} (reply : Except String Reply)
      (standing : b.callers[k]? = some ⟨server, .missed address⟩) :
      Move d b (.fetch k reply)
        { b with callers := b.callers.set k ⟨server, .answered address reply⟩ }
  | closed {k : Nat} {server address : String} {reply : Except String Reply}
      (standing : b.callers[k]? = some ⟨server, .answered address reply⟩) :
      Move d b (.close k)
        ⟨(closing server address reply b.kept).2,
          b.callers.set k ⟨server, .told (closing server address reply b.kept).1⟩⟩
  | invalidated (server : String) : Move d b (.invalidate server) { b with kept := b.kept.drop server }
  | cleared : Move d b .clear { b with kept := .empty }

theorem move_of_step {d : Directory} {b next : Counter} {event : Event}
    (step : b.step? d event = some next) : Move d b event next := by
  cases event with
  | ask server =>
      cases step
      exact .asked server
  | look k =>
      simp only [step?] at step
      split at step
      · next standing =>
          cases step
          exact .looked standing
      · cases step
  | fetch k reply =>
      simp only [step?] at step
      split at step
      · next standing =>
          cases step
          exact .fetched reply standing
      · cases step
  | close k =>
      simp only [step?] at step
      split at step
      · next standing =>
          cases step
          exact .closed standing
      · cases step
  | invalidate server =>
      cases step
      exact .invalidated server
  | clear =>
      cases step
      exact .cleared

theorem preserves_of_run {d : Directory} {P : List Event → Counter → Prop} {history events : List Event}
    {b last : Counter}
    (keeps : ∀ {history : List Event} {b next : Counter} {event : Event}, P history b →
      Move d b event next → P (history ++ [event]) next)
    (start : P history b) (run : run? d events b = some last) : P (history ++ events) last := by
  induction events generalizing history b with
  | nil =>
      cases run
      rwa [List.append_nil]
  | cons event events ih =>
      obtain ⟨next, step, rest⟩ := Option.bind_eq_some_iff.mp run
      have after : P (history ++ [event]) next := keeps start (move_of_step step)
      rw [List.append_cons]
      exact ih after rest

/-- How a caller has come to be what it is after an event: it was there before, has come with the event,
or has taken one of its steps. -/
inductive Moved (d : Directory) (b : Counter) (event : Event) (k : Nat) (caller : Caller) : Prop where
  | stayed (standing : b.callers[k]? = some caller)
  | came (new : caller.inquiry = .asked)
  | looked (found : caller.inquiry = d.look caller.server b.kept)
  | fetched {address : String} {reply : Except String Reply} (fetching : event = .fetch k reply)
      (standing : b.callers[k]? = some ⟨caller.server, .missed address⟩)
      (answered : caller.inquiry = .answered address reply)
  | closed {address : String} {reply : Except String Reply}
      (standing : b.callers[k]? = some ⟨caller.server, .answered address reply⟩)
      (told : caller.inquiry = .told (closing caller.server address reply b.kept).1)

section Moves
variable {d : Directory} {b next : Counter} {event : Event}

theorem caller_move (move : Move d b event next) {k : Nat} {caller : Caller}
    (standing : next.callers[k]? = some caller) : Moved d b event k caller := by
  have stepping {j : Nat} {old new : Caller} (present : b.callers[j]? = some old)
      (standing : (b.callers.set j new)[k]? = some caller) :
      b.callers[k]? = some caller ∨ j = k ∧ new = caller := by
    by_cases here : j = k
    · subst here
      obtain ⟨below, _⟩ := List.getElem?_eq_some_iff.mp present
      rw [List.getElem?_set_self below] at standing
      exact .inr ⟨rfl, Option.some.inj standing⟩
    · rw [List.getElem?_set_ne here] at standing
      exact .inl standing
  cases move with
  | asked server =>
      by_cases here : k < b.callers.length
      · rw [List.getElem?_append_left here] at standing
        exact .stayed standing
      · rw [List.getElem?_append_right (Nat.le_of_not_lt here)] at standing
        cases List.mem_singleton.mp (List.mem_of_getElem? standing)
        exact .came rfl
  | looked present =>
      rcases stepping present standing with same | ⟨rfl, rfl⟩
      · exact .stayed same
      · exact .looked rfl
  | fetched reply present =>
      rcases stepping present standing with same | ⟨rfl, rfl⟩
      · exact .stayed same
      · exact .fetched rfl present rfl
  | closed present =>
      rcases stepping present standing with same | ⟨rfl, rfl⟩
      · exact .stayed same
      · exact .closed present rfl
  | invalidated server => exact .stayed standing
  | cleared => exact .stayed standing

/-- Callers stay with their servers. -/
theorem server_move (move : Move d b event next) {k : Nat} {server : String}
    (standing : b.callers[k]?.map Caller.server = some server) :
    next.callers[k]?.map Caller.server = some server := by
  have stepping {j : Nat} {old new : Caller} (present : b.callers[j]? = some old)
      (same : new.server = old.server) :
      (b.callers.set j new)[k]?.map Caller.server = some server := by
    rw [List.getElem?_set]
    split
    · next here =>
        subst here
        rw [present] at standing
        rw [if_pos (List.getElem?_eq_some_iff.mp present).1, Option.map_some, same]
        exact standing
    · exact standing
  cases move with
  | asked other =>
      obtain ⟨caller, present, _⟩ := Option.map_eq_some_iff.mp standing
      rw [List.getElem?_append_left (List.getElem?_eq_some_iff.mp present).1]
      exact standing
  | looked present => exact stepping present rfl
  | fetched reply present => exact stepping present rfl
  | closed present => exact stepping present rfl
  | invalidated other => exact standing
  | cleared => exact standing

/-- A list that is kept after an event was kept before it, or comes from the reply of a caller. -/
theorem kept_move (move : Move d b event next) {server : String} {offers : List Offer}
    (hit : next.kept.get? server = some offers) :
    b.kept.get? server = some offers ∨
    ∃ (k : Nat) (address : String) (reply : Except String Reply),
      b.callers[k]? = some ⟨server, .answered address reply⟩ ∧
      offersOf server reply = .ok offers := by
  cases move with
  | asked other => exact .inl hit
  | looked present => exact .inl hit
  | fetched reply present => exact .inl hit
  | @closed k asked address reply present =>
      cases read : offersOf asked reply with
      | error e =>
          rw [closing_of_failed read] at hit
          exact .inl hit
      | ok listed =>
          rw [closing_of_read read, Listings.get?_keep] at hit
          split at hit
          · next same =>
              subst same
              cases hit
              exact .inr ⟨k, address, reply, present, read⟩
          · exact .inl hit
  | invalidated dropped =>
      rw [Listings.get?_drop] at hit
      split at hit
      · cases hit
      · exact .inl hit
  | cleared => cases hit

end Moves

/-! ## Where lists come from -/

/-- One of these events is the fetch of a list of a server. -/
def Obtained (b : Counter) (events : List Event) (server : String) (offers : List Offer) : Prop :=
  ∃ k reply, .fetch k reply ∈ events ∧ b.callers[k]?.map Caller.server = some server ∧
    offersOf server reply = .ok offers

/-- Whoever came as the `first` caller or later and was told a list of a server was told one that these
events have fetched. -/
def Fresh (b : Counter) (first : Nat) (server : String) (events : List Event) : Prop :=
  ∀ (k : Nat) (address : String) (offers : List Offer), first ≤ k →
    b.callers[k]? = some ⟨server, .told (.ok (address, offers))⟩ → b.Obtained events server offers

/-- A caller has the reply of a server and has yet to keep the list that it reads there. -/
def Carries (b : Counter) (server : String) : Prop :=
  ∃ (k : Nat) (address : String) (reply : Except String Reply) (offers : List Offer),
    b.callers[k]? = some ⟨server, .answered address reply⟩ ∧ offersOf server reply = .ok offers

def Guided (d : Directory) (b : Counter) : Prop :=
  ∀ (k : Nat) (server address : String), (b.callers[k]? = some ⟨server, .missed address⟩ ∨
    ∃ reply, b.callers[k]? = some ⟨server, .answered address reply⟩) →
    d.addresses.lookup server = some address

/-- What is kept of a server, what callers carry, and what callers from the `first` on have been told,
was fetched by the events so far. -/
structure Renewed (server : String) (first : Nat) (events : List Event) (b : Counter) : Prop where
  kept : ∀ offers, b.kept.get? server = some offers → b.Obtained events server offers
  carried : ∀ (k : Nat) (address : String) (reply : Except String Reply) (offers : List Offer),
    b.callers[k]? = some ⟨server, .answered address reply⟩ → offersOf server reply = .ok offers →
    b.Obtained events server offers
  fresh : b.Fresh first server events

section Provenance
variable {d : Directory} {b next : Counter} {event : Event} {server : String} {first : Nat}
  {events : List Event}

theorem guided_move (guided : b.Guided d) (move : Move d b event next) : next.Guided d := by
  intro k server address goes
  rcases goes with standing | ⟨reply, standing⟩
  · cases caller_move move standing with
    | stayed same => exact guided k server address (.inl same)
    | came new => cases new
    | looked found => exact (look_eq_missed found.symm).1
    | fetched fetching present answered => cases answered
    | closed present told => cases told
  · cases caller_move move standing with
    | stayed same => exact guided k server address (.inr ⟨reply, same⟩)
    | came new => cases new
    | looked found => exact absurd found.symm (look_ne_answered address reply)
    | fetched fetching present answered =>
        cases answered
        exact guided k server address (.inl present)
    | closed present told => cases told

theorem guided_of_run (run : run? d events empty = some b) : b.Guided d := by
  let P : List Event → Counter → Prop := fun _ => Guided d
  have start : P [] empty := by simp [P, Guided, empty]
  have last : P ([] ++ events) b :=
    preserves_of_run (fun guided move => guided_move guided move) start run
  exact last

theorem obtained_move {offers : List Offer} (obtained : b.Obtained events server offers)
    (move : Move d b event next) : next.Obtained (events ++ [event]) server offers := by
  obtain ⟨k, reply, fetched, standing, read⟩ := obtained
  exact ⟨k, reply, List.mem_append_left _ fetched, server_move move standing, read⟩

theorem renewed_move (renewed : Renewed server first events b) (move : Move d b event next) :
    Renewed server first (events ++ [event]) next := by
  obtain ⟨kept, carried, fresh⟩ := renewed
  refine ⟨?_, ?_, ?_⟩
  · intro offers hit
    rcases kept_move move hit with before | ⟨k, address, reply, standing, read⟩
    · exact obtained_move (kept offers before) move
    · exact obtained_move (carried k address reply offers standing read) move
  · intro k address reply offers standing read
    cases caller_move move standing with
    | stayed same => exact obtained_move (carried k address reply offers same read) move
    | came new => cases new
    | looked found => exact absurd found.symm (look_ne_answered address reply)
    | fetched fetching present answered =>
        cases answered
        exact ⟨k, reply, by simp [fetching], by rw [standing]; rfl, read⟩
    | closed present told => cases told
  · intro k address offers late standing
    cases caller_move move standing with
    | stayed same => exact obtained_move (fresh k address offers late same) move
    | came new => cases new
    | looked found => exact obtained_move (kept offers (look_eq_told found.symm)) move
    | fetched fetching present answered => cases answered
    | @closed _ reply present told =>
        cases read : offersOf server reply with
        | error e =>
            rw [closing_of_failed read] at told
            cases told
        | ok listed =>
            rw [closing_of_read read] at told
            cases told
            exact obtained_move (carried k _ reply offers present read) move

theorem renewed_of_run {last : Counter} {later : List Event} (start : Renewed server first events b)
    (run : run? d later b = some last) : Renewed server first (events ++ later) last :=
  preserves_of_run (fun renewed move => renewed_move renewed move) start run

theorem renewed_empty (server : String) : Renewed server 0 [] empty := by
  constructor
  · intro offers hit
    cases hit
  · intro k address reply offers standing
    simp [empty] at standing
  · intro k address offers late standing
    simp [empty] at standing

/-- Once the list of a server is dropped and nobody carries one, all is fetched from here on. -/
theorem renewed_of_drops {dropped : Counter} (drops : event.Drops server)
    (dropping : b.step? d event = some dropped) (free : ¬ dropped.Carries server) :
    Renewed server dropped.callers.length [] dropped := by
  refine ⟨?_, ?_, ?_⟩
  · intro offers hit
    rcases drops with rfl | rfl
    · cases dropping
      rw [Listings.get?_drop, if_pos rfl] at hit
      cases hit
    · cases dropping
      cases hit
  · intro k address reply offers standing read
    exact absurd ⟨k, address, reply, offers, standing, read⟩ free
  · intro k address offers late standing
    rw [List.getElem?_eq_none late] at standing
    cases standing

/-- A caller that carries a list keeps it, and the next one is told that list without any fetch. -/
theorem run?_revival {k : Nat} {address : String} {reply : Except String Reply} {offers : List Offer}
    (known : d.addresses.lookup server = some address)
    (standing : b.callers[k]? = some ⟨server, .answered address reply⟩)
    (read : offersOf server reply = .ok offers) :
    ∃ after, run? d [.close k, .ask server, .look b.callers.length] b = some after ∧
      after.callers[b.callers.length]? = some ⟨server, .told (.ok (address, offers))⟩ := by
  let kept := b.kept.keep server offers
  let callers := b.callers.set k ⟨server, .told (.ok (address, offers))⟩
  let asking := callers ++ [⟨server, .asked⟩]
  have count : callers.length = b.callers.length := List.length_set
  have here : asking[b.callers.length]? = some ⟨server, .asked⟩ := by
    rw [← count]
    exact List.getElem?_concat_length
  have hit : kept.get? server = some offers := by rw [Listings.get?_keep, if_pos rfl]
  have closed : b.step? d (.close k) = some ⟨kept, callers⟩ := by
    simp only [step?, standing, closing_of_read read]
    rfl
  have asked : step? d ⟨kept, callers⟩ (.ask server) = some ⟨kept, asking⟩ := rfl
  have told : step? d ⟨kept, asking⟩ (.look b.callers.length) =
      some ⟨kept, asking.set b.callers.length ⟨server, .told (.ok (address, offers))⟩⟩ := by
    simp only [step?, here, look_of_kept known hit]
  obtain ⟨below, _⟩ := List.getElem?_eq_some_iff.mp here
  refine ⟨⟨kept, asking.set b.callers.length ⟨server, .told (.ok (address, offers))⟩⟩, ?_,
    List.getElem?_set_self below⟩
  rw [run?, closed, Option.bind_some, run?, asked, Option.bind_some, run?, told, Option.bind_some, run?]

/-- A reply without a list leaves what is kept as it is, when it comes and when its caller is told so. -/
theorem kept_of_failed {k : Nat} {address : String} {reply : Except String Reply} {e : ToolError}
    (failed : offersOf server reply = .error e)
    (step : event = .fetch k reply ∨
      event = .close k ∧ b.callers[k]? = some ⟨server, .answered address reply⟩)
    (stepped : b.step? d event = some next) : next.kept = b.kept := by
  rcases step with rfl | ⟨rfl, standing⟩
  · cases move_of_step stepped
    rfl
  · simp only [step?, standing, closing_of_failed failed] at stepped
    cases stepped
    rfl

end Provenance

/-- After the list of a server has been dropped, everyone who comes from then on and is told a list of it
is told one that was asked for after the drop, in whatever order anything happens, exactly when nobody
has a reply with a list of the server at the drop that is yet to be kept. Lists are made by replies
in any case, and a reply without a list changes nothing that is kept. -/
theorem later_callers_told_fresh_iff {d : Directory} {history : List Event} {before dropped : Counter}
    {event : Event} {server : String} (reached : run? d history empty = some before)
    (drops : event.Drops server) (dropping : before.step? d event = some dropped) :
    ((∀ later after, run? d later dropped = some after →
        after.Fresh dropped.callers.length server later) ↔ ¬ dropped.Carries server) ∧
    (∀ later after, run? d later dropped = some after →
      ∀ asked, after.Fresh 0 asked (history ++ event :: later)) ∧
    ∀ (b next : Counter) (step : Event) (k : Nat) (asked address : String) (reply : Except String Reply)
      (e : ToolError), offersOf asked reply = .error e →
      (step = .fetch k reply ∨ step = .close k ∧ b.callers[k]? = some ⟨asked, .answered address reply⟩) →
      b.step? d step = some next → next.kept = b.kept := by
  have guided : dropped.Guided d := guided_move (guided_of_run reached) (move_of_step dropping)
  refine ⟨⟨?_, ?_⟩, ?_, ?_⟩
  · rintro always ⟨k, address, reply, offers, standing, read⟩
    have known := guided k server address (.inr ⟨reply, standing⟩)
    obtain ⟨after, run, told⟩ := run?_revival known standing read
    obtain ⟨_, _, fetched, _⟩ := always _ after run _ _ _ le_rfl told
    simp at fetched
  · intro free later after run
    exact (renewed_of_run (renewed_of_drops drops dropping free) run).fresh
  · intro later after run asked
    have whole : run? d (history ++ event :: later) empty = some after := by
      rw [run?_append, reached, Option.bind_some, run?, dropping, Option.bind_some, run]
    exact (renewed_of_run (renewed_empty asked) whole).fresh
  · intro b next step k asked address reply e failed failing stepped
    exact kept_of_failed failed failing stepped

/-! ## A reply that a drop overtakes -/

/-- One server. -/
def library : Directory := ⟨[("docs", "http://docs")]⟩

def listing (name : String) : Except String Reply :=
  .ok ⟨200, "[\x7b\"name\":\"" ++ name ++ "\"\x7d]"⟩

theorem offersOf_listing_old : offersOf "docs" (listing "old") = .ok [⟨"old", ""⟩] := by
  decide +kernel

def onTheWay : Counter := ⟨.empty, [⟨"docs", .missed "http://docs"⟩]⟩

theorem callers_after_clear_told_fresh :
    run? library [.ask "docs", .look 0] empty = some onTheWay ∧
      onTheWay.step? library .clear = some onTheWay ∧
      ∀ later after, run? library later onTheWay = some after → after.Fresh 1 "docs" later := by
  have reached : run? library [.ask "docs", .look 0] empty = some onTheWay := rfl
  refine ⟨reached, rfl, ?_⟩
  have drops : Event.clear.Drops "docs" := .inr rfl
  refine (later_callers_told_fresh_iff reached drops rfl).1.mpr ?_
  rintro ⟨k, address, reply, offers, standing, read⟩
  cases k with
  | zero => cases standing
  | succ k => cases standing

def overtaken : Counter := ⟨.empty, [⟨"docs", .answered "http://docs" (listing "old")⟩]⟩

/-- The reply was there before the drop, and is kept behind it. -/
theorem later_caller_told_old :
    ¬ ∀ (d : Directory) (history later : List Event) (before dropped after : Counter) (event : Event)
        (server : String), run? d history empty = some before → event.Drops server →
      before.step? d event = some dropped → run? d later dropped = some after →
      after.Fresh dropped.callers.length server later := by
  intro always
  have reached : run? library [.ask "docs", .look 0, .fetch 0 (listing "old")] empty =
      some overtaken := rfl
  have standing : overtaken.callers[0]? = some ⟨"docs", .answered "http://docs" (listing "old")⟩ := rfl
  have known : library.addresses.lookup "docs" = some "http://docs" := rfl
  obtain ⟨after, run, told⟩ := run?_revival known standing offersOf_listing_old
  obtain ⟨_, _, fetched, _⟩ := always library _ _ _ overtaken _ (.invalidate "docs") "docs" reached
    (.inl rfl) rfl run _ _ _ le_rfl told
  simp at fetched

end Counter

end CrewFlow.Remote
