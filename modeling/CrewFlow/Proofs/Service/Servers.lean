import Mathlib
import CrewFlow.Service.Settings
import CrewFlow.Proofs.Text.Pieces
/-!
# Lists of servers

A list of servers names each server with its address. It is read when every piece between its commas that is not blank
is an entry, and it gives each name the address of its last entry, without the slashes at the end.
-/
set_option autoImplicit false

namespace CrewFlow.Service

open Text (CutAt dropBack isBlank isBlankText trim trimChars trimEnd trimStart)

/-! ## Entries -/

/-- A piece with a name and an address around its first `=`, neither of them blank. -/
structure ServerEntry (raw name address : String) : Prop where
  parts : ∃ before behind, raw = before ++ "=" ++ behind ∧ '=' ∉ before.toList ∧ trim before = name ∧
    trim behind = address
  named : name ≠ ""
  addressed : address ≠ ""

/-- `url` is `address` without the slashes at its end. -/
structure Unslashed (address url : String) : Prop where
  slashes : ∃ n, address.toList = url.toList ++ List.replicate n '/'
  bare : url.toList.getLast? ≠ some '/'

def entryOf? (raw : String) : Option (String × String) := (readToolServer (trim raw)).toOption

section Entries
variable {raw piece name url address before behind : String}

theorem unslashed_iff : Unslashed address url ↔ url = String.ofList (dropBack '/' address.toList) := by
  constructor
  · rintro ⟨⟨n, whole⟩, bare⟩
    rw [whole, Text.dropBack_append bare, String.ofList_toList]
  · rintro rfl
    constructor
    · rw [String.toList_ofList]
      exact Text.exists_append_of_dropBack '/' address.toList
    · rw [String.toList_ofList]
      exact Text.getLast?_dropBack '/' address.toList

theorem splitOnce?_equals (s : String) :
    Text.splitOnce? s "=" =
      (Text.splitFirst? ['='] s.toList).map fun (a, b) => (String.ofList a, String.ofList b) :=
  rfl

theorem splitOnce?_parts (first : '=' ∉ before.toList) :
    Text.splitOnce? (trim (before ++ "=" ++ behind)) "=" =
      some (String.ofList (trimStart before.toList), String.ofList (trimEnd behind.toList)) := by
  have tight : trimChars (before ++ "=" ++ behind).toList =
      trimStart before.toList ++ '=' :: trimEnd behind.toList := by
    rw [String.toList_append, String.toList_append, List.append_assoc]
    exact Text.trimChars_append_cons (by decide)
  have absent : '=' ∉ trimStart before.toList := fun member => first ((List.dropWhile_sublist _).subset member)
  have found : Text.splitFirst? ['='] (trimStart before.toList ++ '=' :: trimEnd behind.toList) =
      some (trimStart before.toList, trimEnd behind.toList) :=
    Text.splitFirst?_eq_some_iff.mpr ⟨rfl, absent⟩
  rw [splitOnce?_equals, trim, String.toList_ofList, tight, found]
  rfl

theorem readToolServer_parts (first : '=' ∉ before.toList) :
    readToolServer (trim (before ++ "=" ++ behind)) =
      if trim before = "" ∨ trim behind = "" then .error (.toolServer (trim (before ++ "=" ++ behind)))
      else .ok (trim before, String.ofList (dropBack '/' (trim behind).toList)) := by
  have left : trim (String.ofList (trimStart before.toList)) = trim before := by
    rw [trim, String.toList_ofList, Text.trimChars_trimStart, trim]
  have right : trim (String.ofList (trimEnd behind.toList)) = trim behind := by
    rw [trim, String.toList_ofList, Text.trimChars_trimEnd, trim]
  rw [readToolServer, splitOnce?_parts first]
  simp only [Bool.or_eq_true, ← Text.trim_eq_empty_iff, left, right]

theorem exists_parts (present : '=' ∈ raw.toList) :
    ∃ before behind, raw = before ++ "=" ++ behind ∧ '=' ∉ before.toList := by
  obtain ⟨before, behind, whole, first⟩ := List.eq_append_cons_of_mem present
  refine ⟨String.ofList before, String.ofList behind, String.toList_inj.mp ?_, by simpa using first⟩
  simp [whole]

theorem mem_of_readToolServer (read : readToolServer piece = .ok (name, url)) : '=' ∈ piece.toList := by
  by_contra absent
  have nowhere : Text.splitOnce? piece "=" = none := by
    rw [splitOnce?_equals, Text.splitFirst?_eq_none absent]
    rfl
  rw [readToolServer, nowhere] at read
  cases read

theorem readToolServer_eq_ok_iff :
    readToolServer (trim raw) = .ok (name, url) ↔ ∃ address, ServerEntry raw name address ∧ Unslashed address url := by
  constructor
  · intro read
    obtain ⟨before, behind, rfl, first⟩ := exists_parts (Text.mem_of_mem_trim (mem_of_readToolServer read))
    rw [readToolServer_parts first] at read
    split at read
    · cases read
    · next given =>
      obtain ⟨named, addressed⟩ := not_or.mp given
      cases read
      exact ⟨trim behind, ⟨⟨before, behind, rfl, first, rfl, rfl⟩, named, addressed⟩, unslashed_iff.mpr rfl⟩
  · rintro ⟨address, ⟨⟨before, behind, rfl, first, rfl, rfl⟩, named, addressed⟩, bare⟩
    rw [readToolServer_parts first, if_neg (not_or.mpr ⟨named, addressed⟩), unslashed_iff.mp bare]

theorem entryOf?_eq_some_iff :
    entryOf? raw = some (name, url) ↔ ∃ address, ServerEntry raw name address ∧ Unslashed address url := by
  rw [← readToolServer_eq_ok_iff, entryOf?]
  cases readToolServer (trim raw) <;> simp [Except.toOption]

theorem exists_read_iff : (∃ e, readToolServer (trim raw) = .ok e) ↔ ∃ name address, ServerEntry raw name address := by
  constructor
  · rintro ⟨⟨name, url⟩, read⟩
    obtain ⟨address, entry, -⟩ := readToolServer_eq_ok_iff.mp read
    exact ⟨name, address, entry⟩
  · rintro ⟨name, address, entry⟩
    exact ⟨(name, _), readToolServer_eq_ok_iff.mpr ⟨address, entry, unslashed_iff.mpr rfl⟩⟩

end Entries

/-! ## The last entry of each name -/

def lastOfEach (entries : List (String × String)) : List (String × String) :=
  entries.foldl (fun kept e => kept.filter (fun k => k.1 ≠ e.1) ++ [e]) []

section Last
variable {entries servers : List (String × String)}

theorem lastOfEach_append (entries : List (String × String)) (e : String × String) :
    lastOfEach (entries ++ [e]) = (lastOfEach entries).filter (fun k => k.1 ≠ e.1) ++ [e] := by
  rw [lastOfEach, List.foldl_append]
  rfl

theorem mem_lastOfEach {x : String × String} :
    x ∈ lastOfEach entries ↔ ∃ earlier later, entries = earlier ++ x :: later ∧ ∀ e ∈ later, e.1 ≠ x.1 := by
  -- By induction on the entries, the last one taken first: it drops those of its name before it.
  induction entries using List.reverseRecOn with
  | nil => simp [lastOfEach]
  | append_singleton entries e ih =>
      rw [lastOfEach_append, List.mem_append, List.mem_filter, ih, List.mem_singleton, decide_eq_true_iff]
      constructor
      · rintro (⟨⟨earlier, later, rfl, last⟩, other⟩ | rfl)
        · refine ⟨earlier, later ++ [e], by simp, ?_⟩
          simp only [List.mem_append, List.mem_singleton]
          rintro k (member | rfl)
          · exact last k member
          · exact Ne.symm other
        · exact ⟨entries, [], rfl, by simp⟩
      · rintro ⟨earlier, later, whole, last⟩
        rcases List.eq_nil_or_concat later with rfl | ⟨others, final, rfl⟩
        · exact .inr (List.singleton_inj.mp (List.append_inj_right' whole rfl)).symm
        · rw [List.concat_eq_append, ← List.cons_append, ← List.append_assoc] at whole
          obtain ⟨rfl, same⟩ := List.append_inj' whole rfl
          obtain rfl := List.singleton_inj.mp same
          refine .inl ⟨⟨earlier, others, rfl, fun k member => last k (by simp [member])⟩, ?_⟩
          exact Ne.symm (last e (by simp))

theorem pairwise_lastOfEach (entries : List (String × String)) :
    (lastOfEach entries).Pairwise fun a b => a.1 ≠ b.1 := by
  induction entries using List.reverseRecOn with
  | nil => exact List.Pairwise.nil
  | append_singleton entries e ih =>
      rw [lastOfEach_append]
      refine List.pairwise_append.mpr ⟨ih.filter _, List.pairwise_singleton _ _, ?_⟩
      intro k member x there
      rw [List.mem_singleton.mp there]
      simpa using (List.mem_filter.mp member).2

theorem lastOfEach_eq_self (distinct : entries.Pairwise fun a b => a.1 ≠ b.1) : lastOfEach entries = entries := by
  induction entries using List.reverseRecOn with
  | nil => rfl
  | append_singleton entries e ih =>
      obtain ⟨before, -, across⟩ := List.pairwise_append.mp distinct
      rw [lastOfEach_append, ih before, List.filter_eq_self.mpr]
      intro k member
      simpa using across k member e (List.mem_singleton_self e)

theorem mem_byName {x : String × String} :
    x ∈ byName entries ↔ ∃ earlier later, entries = earlier ++ x :: later ∧ ∀ e ∈ later, e.1 ≠ x.1 := by
  rw [← mem_lastOfEach]
  exact List.mem_mergeSort

theorem pairwise_byName (entries : List (String × String)) : (byName entries).Pairwise fun a b => a.1 < b.1 := by
  let le (a b : String × String) : Bool := !(b.1 < a.1)
  have le_iff (a b : String × String) : le a b = true ↔ a.1 ≤ b.1 := by
    simp only [le, Bool.not_eq_true', decide_eq_false_iff_not, String.not_lt]
  have trans : ∀ a b c, le a b → le b c → le a c := by
    intro a b c first second
    rw [le_iff] at first second ⊢
    exact String.le_trans first second
  have total : ∀ a b, le a b || le b a := by
    intro a b
    rw [Bool.or_eq_true, le_iff, le_iff]
    exact String.le_total _ _
  have distinct : ((lastOfEach entries).mergeSort le).Pairwise fun a b => a.1 ≠ b.1 :=
    ((List.mergeSort_perm _ _).pairwise_iff Ne.symm).mpr (pairwise_lastOfEach entries)
  refine ((List.pairwise_mergeSort trans total _).and distinct).imp ?_
  rintro a b ⟨order, other⟩
  by_contra above
  exact other (String.le_antisymm ((le_iff a b).mp order) (String.not_lt.mp above))

theorem byName_eq (last : lastOfEach entries = servers) (ordered : servers.Pairwise fun a b => a.1 < b.1) :
    byName entries = servers := by
  have sorted : byName entries = servers.mergeSort fun a b => !(b.1 < a.1) := congrArg (List.mergeSort · _) last
  rw [sorted]
  refine List.mergeSort_of_pairwise (ordered.imp ?_)
  intro a b below
  simpa only [Bool.not_eq_true', decide_eq_false_iff_not] using String.lt_asymm below

theorem byName_eq_self (ordered : servers.Pairwise fun a b => a.1 < b.1) : byName servers = servers := by
  refine byName_eq (lastOfEach_eq_self (ordered.imp ?_)) ordered
  rintro a b below same
  exact String.lt_irrefl _ (same ▸ below)

theorem exists_mem_byName {e : String × String} (member : e ∈ entries) : ∃ x ∈ byName entries, x.1 = e.1 := by
  suffices kept : ∃ x ∈ lastOfEach entries, x.1 = e.1 by
    obtain ⟨x, there, same⟩ := kept
    exact ⟨x, List.mem_mergeSort.mpr there, same⟩
  induction entries using List.reverseRecOn with
  | nil => cases member
  | append_singleton entries f ih =>
      rw [lastOfEach_append]
      by_cases same : f.1 = e.1
      · exact ⟨f, by simp, same⟩
      · rcases List.mem_append.mp member with before | last
        · obtain ⟨x, there, name⟩ := ih before
          have other : x.1 ≠ f.1 := fun clash => same (clash ▸ name)
          exact ⟨x, by simp [there, other], name⟩
        · exact absurd (congrArg Prod.fst (List.mem_singleton.mp last)).symm same

end Last

/-! ## Lists -/

def Readable (raws : List String) : Prop :=
  ∀ raw ∈ raws, isBlankText raw = false → ∃ name address, ServerEntry raw name address

/-- The last entry of a name among pieces. -/
def LastEntry (raws : List String) (name address : String) : Prop :=
  ∃ earlier raw later, raws = earlier ++ raw :: later ∧ ServerEntry raw name address ∧
    ∀ other ∈ later, ∀ elsewhere, ¬ServerEntry other name elsewhere

/-- The servers that pieces name, in the order of their names: each piece that is not blank counts, and each name
has the address of its last entry. -/
structure NamedBy (raws : List String) (servers : List (String × String)) : Prop where
  ordered : servers.Pairwise fun a b => a.1 < b.1
  each : ∀ raw ∈ raws, isBlankText raw = false →
    ∃ name address url, ServerEntry raw name address ∧ (name, url) ∈ servers
  mem_iff : ∀ name url, (name, url) ∈ servers ↔ ∃ address, LastEntry raws name address ∧ Unslashed address url

section Lists
variable {raws : List String} {servers others : List (String × String)} {text name url : String}

theorem mapM_eq_ok_iff {ε α β : Type} {f : α → Except ε β} {xs : List α} {ys : List β} :
    xs.mapM f = .ok ys ↔ (∀ x ∈ xs, ∃ y, f x = .ok y) ∧ xs.filterMap (fun x => (f x).toOption) = ys := by
  induction xs generalizing ys with
  | nil => simp [pure, Except.pure]
  | cons x xs ih =>
      have front : (x :: xs).mapM f = .ok ys ↔ ∃ y zs, f x = .ok y ∧ xs.mapM f = .ok zs ∧ y :: zs = ys := by
        rw [List.mapM_cons]
        cases f x <;> cases xs.mapM f <;> simp [bind, Except.bind, pure, Except.pure]
      rw [front]
      constructor
      · rintro ⟨y, zs, read, rest, rfl⟩
        obtain ⟨good, rfl⟩ := ih.mp rest
        exact ⟨List.forall_mem_cons.mpr ⟨⟨y, read⟩, good⟩, List.filterMap_cons_some (by rw [read]; rfl)⟩
      · rintro ⟨good, rfl⟩
        obtain ⟨⟨y, read⟩, later⟩ := List.forall_mem_cons.mp good
        exact ⟨y, _, read, ih.mpr ⟨later, rfl⟩, (List.filterMap_cons_some (by rw [read]; rfl)).symm⟩

theorem listPieces_eq (cut : CutAt ',' text raws) : listPieces text = (raws.map trim).filter (· ≠ "") := by
  have trimmed : (Text.pieces ',' text.toList).map (fun p => trim (String.ofList p)) = raws.map trim := by
    rw [← cut.pieces_eq, List.map_map]
    rfl
  rw [listPieces, trimmed]

theorem mem_listPieces (cut : CutAt ',' text raws) {piece : String} :
    piece ∈ listPieces text ↔ ∃ raw ∈ raws, isBlankText raw = false ∧ trim raw = piece := by
  rw [listPieces_eq cut, List.mem_filter, List.mem_map, decide_eq_true_iff]
  constructor
  · rintro ⟨⟨raw, member, rfl⟩, given⟩
    refine ⟨raw, member, ?_, rfl⟩
    simpa using mt (Text.trim_eq_empty_iff raw).mpr given
  · rintro ⟨raw, member, shown, rfl⟩
    refine ⟨⟨raw, member, rfl⟩, mt (Text.trim_eq_empty_iff raw).mp (by simp [shown])⟩

theorem filterMap_listPieces (cut : CutAt ',' text raws) :
    (listPieces text).filterMap (fun piece => (readToolServer piece).toOption) = raws.filterMap entryOf? := by
  rw [listPieces_eq cut, List.filterMap_filter, List.filterMap_map]
  refine List.filterMap_congr fun raw _ => ?_
  by_cases blank : trim raw = ""
  · have refused : entryOf? raw = none := by
      rw [entryOf?, blank]
      rfl
    simp [blank, refused]
  · simp [blank, entryOf?]

theorem readToolServers_eq_ok_iff_mapM : readToolServers text = .ok servers ↔
    ∃ entries, (listPieces text).mapM readToolServer = .ok entries ∧ byName entries = servers := by
  rw [readToolServers]
  cases (listPieces text).mapM readToolServer <;> simp [bind, Except.bind, pure, Except.pure]

theorem readToolServers_eq_ok_iff (cut : CutAt ',' text raws) :
    readToolServers text = .ok servers ↔ Readable raws ∧ byName (raws.filterMap entryOf?) = servers := by
  have entries : (∀ piece ∈ listPieces text, ∃ e, readToolServer piece = .ok e) ↔ Readable raws := by
    constructor
    · intro read raw member shown
      exact exists_read_iff.mp (read _ ((mem_listPieces cut).mpr ⟨raw, member, shown, rfl⟩))
    · intro readable piece member
      obtain ⟨raw, there, shown, rfl⟩ := (mem_listPieces cut).mp member
      exact exists_read_iff.mpr (readable raw there shown)
  rw [← entries, ← filterMap_listPieces cut, readToolServers_eq_ok_iff_mapM]
  constructor
  · rintro ⟨found, read, rfl⟩
    obtain ⟨good, rfl⟩ := mapM_eq_ok_iff.mp read
    exact ⟨good, rfl⟩
  · rintro ⟨good, rfl⟩
    exact ⟨_, mapM_eq_ok_iff.mpr ⟨good, rfl⟩, rfl⟩

theorem readToolServers_of_last (entries : List (String × String))
    (read : (listPieces text).mapM readToolServer = .ok entries) (last : lastOfEach entries = servers)
    (ordered : servers.Pairwise fun a b => a.1 < b.1) : readToolServers text = .ok servers :=
  readToolServers_eq_ok_iff_mapM.mpr ⟨entries, read, byName_eq last ordered⟩

theorem mem_byName_filterMap :
    (name, url) ∈ byName (raws.filterMap entryOf?) ↔
      ∃ address, LastEntry raws name address ∧ Unslashed address url := by
  rw [mem_byName]
  constructor
  · rintro ⟨earlier, later, whole, last⟩
    obtain ⟨before, behind, rfl, -, rest⟩ := List.filterMap_eq_append_iff.mp whole
    obtain ⟨blanks, raw, after, rfl, -, read, rfl⟩ := List.filterMap_eq_cons_iff.mp rest
    obtain ⟨address, entry, bare⟩ := entryOf?_eq_some_iff.mp read
    refine ⟨address, ⟨before ++ blanks, raw, after, by simp, entry, ?_⟩, bare⟩
    intro other member elsewhere again
    have there : entryOf? other = some (name, _) :=
      entryOf?_eq_some_iff.mpr ⟨elsewhere, again, unslashed_iff.mpr rfl⟩
    exact last _ (List.mem_filterMap.mpr ⟨other, member, there⟩) rfl
  · rintro ⟨address, ⟨earlier, raw, later, rfl, entry, last⟩, bare⟩
    have read : entryOf? raw = some (name, url) := entryOf?_eq_some_iff.mpr ⟨address, entry, bare⟩
    refine ⟨earlier.filterMap entryOf?, later.filterMap entryOf?, by simp [read], ?_⟩
    rintro ⟨label, link⟩ member rfl
    obtain ⟨other, there, found⟩ := List.mem_filterMap.mp member
    obtain ⟨elsewhere, again, -⟩ := entryOf?_eq_some_iff.mp found
    exact last other there elsewhere again

theorem namedBy_byName (readable : Readable raws) : NamedBy raws (byName (raws.filterMap entryOf?)) where
  ordered := pairwise_byName _
  each := by
    intro raw member shown
    obtain ⟨name, address, entry⟩ := readable raw member shown
    have read : entryOf? raw = some (name, _) := entryOf?_eq_some_iff.mpr ⟨address, entry, unslashed_iff.mpr rfl⟩
    obtain ⟨⟨_, url⟩, there, rfl⟩ := exists_mem_byName (List.mem_filterMap.mpr ⟨raw, member, read⟩)
    exact ⟨_, address, url, entry, there⟩
  mem_iff := fun _ _ => mem_byName_filterMap

theorem NamedBy.readable (named : NamedBy raws servers) : Readable raws := by
  intro raw member shown
  obtain ⟨name, address, -, entry, -⟩ := named.each raw member shown
  exact ⟨name, address, entry⟩

theorem NamedBy.unique (left : NamedBy raws servers) (right : NamedBy raws others) : servers = others := by
  have : Std.Irrefl fun a b : String × String => a.1 < b.1 := ⟨fun a => String.lt_irrefl a.1⟩
  have : Std.Antisymm fun a b : String × String => a.1 < b.1 :=
    ⟨fun a b below above => absurd above (String.lt_asymm below)⟩
  refine List.Pairwise.eq_of_mem_iff left.ordered right.ordered ?_
  rintro ⟨name, url⟩
  rw [left.mem_iff, right.mem_iff]

theorem NamedBy.url_unique {elsewhere : String} (named : NamedBy raws servers) (member : (name, url) ∈ servers)
    (again : (name, elsewhere) ∈ servers) : url = elsewhere := by
  have distinct : (servers.map Prod.fst).Nodup := by
    refine List.pairwise_map.mpr (named.ordered.imp ?_)
    intro a b below same
    exact String.lt_irrefl _ (same ▸ below)
  exact (Prod.mk.inj (List.inj_on_of_nodup_map distinct member again rfl)).2

theorem readToolServers_iff (cut : CutAt ',' text raws) :
    readToolServers text = .ok servers ↔ NamedBy raws servers := by
  rw [readToolServers_eq_ok_iff cut]
  constructor
  · rintro ⟨readable, rfl⟩
    exact namedBy_byName readable
  · intro named
    exact ⟨named.readable, (namedBy_byName named.readable).unique named⟩

theorem exists_readToolServers_iff (cut : CutAt ',' text raws) :
    (∃ servers, readToolServers text = .ok servers) ↔ Readable raws := by
  constructor
  · rintro ⟨servers, read⟩
    exact ((readToolServers_iff cut).mp read).readable
  · intro readable
    exact ⟨_, (readToolServers_iff cut).mpr (namedBy_byName readable)⟩

end Lists

end CrewFlow.Service
