import Mathlib
import CrewFlow.Proofs.Service.Servers
import CrewFlow.Proofs.Spec.Checks
/-!
# Addresses of servers

The addresses that a list of servers gives can be used unless the slashes at the end of what was written stand alone:
those are dropped after white space and empty addresses have been looked for. What is written as a list of servers that
can be used is read back from it, and settings have the servers of their list.
-/
set_option autoImplicit false

namespace CrewFlow.Service

open Spec (Trimmed)
open Text (CutAt dropBack isBlank isBlankText trim)

/-! ## Addresses that can be used -/

structure UsableAddress (url : String) : Prop where
  trimmed : Trimmed url
  bare : url.toList.getLast? ≠ some '/'

instance (url : String) : Decidable (UsableAddress url) :=
  decidable_of_iff (Trimmed url ∧ url.toList.getLast? ≠ some '/') ⟨fun h => ⟨h.1, h.2⟩, fun h => ⟨h.trimmed, h.bare⟩⟩

/-- The slashes at the end of an address have nothing in front of them, or white space. -/
def SlashesAlone (address : String) : Prop :=
  ∃ front n, address.toList = front ++ List.replicate (n + 1) '/' ∧ ∀ c ∈ front.getLast?, isBlank c = true

section Usable
variable {raws : List String} {servers : List (String × String)} {raw name address url : String}

theorem ServerEntry.trimmed (entry : ServerEntry raw name address) : Trimmed name ∧ Trimmed address := by
  obtain ⟨before, behind, -, -, rfl, rfl⟩ := entry.parts
  exact ⟨⟨entry.named, Text.trim_trim before⟩, entry.addressed, Text.trim_trim behind⟩

/-- An address without its last slashes can be used unless those stand alone. -/
theorem usableAddress_iff (entry : ServerEntry raw name address) (bare : Unslashed address url) :
    UsableAddress url ↔ ¬SlashesAlone address := by
  obtain ⟨⟨n, whole⟩, noSlash⟩ := bare
  constructor
  · rintro usable ⟨front, m, other, blank⟩
    -- What is in front of the slashes is all that is left without them.
    have frontBare : front.getLast? ≠ some '/' := fun last => absurd (blank '/' last) (by decide)
    have same : front = url.toList := by
      rw [← Text.dropBack_append frontBare (m + 1), ← other, whole, Text.dropBack_append noSlash]
    cases last : url.toList.getLast? with
    | none => exact usable.trimmed.1 (String.toList_eq_nil_iff.mp (List.getLast?_eq_none_iff.mp last))
    | some c =>
        have solid := Text.isBlank_of_getLast? usable.trimmed.2 last
        cases solid.symm.trans (blank c (same ▸ last))
  · intro company
    cases n with
    | zero =>
        rw [List.replicate_zero, List.append_nil, String.toList_inj] at whole
        rw [← whole] at noSlash ⊢
        exact ⟨entry.trimmed.2, noSlash⟩
    | succ n =>
        obtain ⟨c, last, solid⟩ : ∃ c, url.toList.getLast? = some c ∧ isBlank c = false := by
          by_contra none_solid
          refine company ⟨url.toList, n, whole, fun c last => ?_⟩
          by_contra solid
          exact none_solid ⟨c, last, by simpa using solid⟩
        -- It begins as the trimmed address does, so only its end could be white space.
        refine ⟨⟨?_, Text.trim_eq_self ?_ ?_⟩, noSlash⟩
        · rintro rfl
          cases last
        · intro d first
          exact Text.isBlank_of_head? entry.trimmed.2.2 (by rw [whole, List.head?_append, first]; rfl)
        · intro d final
          rwa [Option.some.inj (final.symm.trans last)]

theorem NamedBy.usable_iff (named : NamedBy raws servers) (member : (name, url) ∈ servers) :
    UsableAddress url ↔ ¬∃ address, LastEntry raws name address ∧ SlashesAlone address := by
  constructor
  · rintro usable ⟨address, last, alone⟩
    have there : (name, _) ∈ servers := (named.mem_iff _ _).mpr ⟨address, last, unslashed_iff.mpr rfl⟩
    have same : url = String.ofList (dropBack '/' address.toList) := named.url_unique member there
    obtain ⟨-, raw, -, -, entry, -⟩ := last
    exact (usableAddress_iff entry (unslashed_iff.mpr same)).mp usable alone
  · intro company
    obtain ⟨address, last, bare⟩ := (named.mem_iff name url).mp member
    have ⟨_, _, _, _, entry, _⟩ := last
    exact (usableAddress_iff entry bare).mpr fun alone => company ⟨address, last, alone⟩

end Usable

/-! ## Written lists -/

/-- A server that a list can name: neither part has a comma, and the name has no `=`. -/
structure Listable (e : String × String) : Prop where
  name : Trimmed e.1
  address : UsableAddress e.2
  noEquals : '=' ∉ e.1.toList
  noComma : ',' ∉ e.1.toList ∧ ',' ∉ e.2.toList

instance (e : String × String) : Decidable (Listable e) :=
  decidable_of_iff (Trimmed e.1 ∧ UsableAddress e.2 ∧ '=' ∉ e.1.toList ∧ ',' ∉ e.1.toList ∧ ',' ∉ e.2.toList)
    ⟨fun h => ⟨h.1, h.2.1, h.2.2.1, h.2.2.2⟩, fun h => ⟨h.name, h.address, h.noEquals, h.noComma⟩⟩

def pairText (e : String × String) : String := e.1 ++ "=" ++ e.2

/-- The text of a list. -/
def listText (servers : List (String × String)) : String := ",".intercalate (servers.map pairText)

section Written
variable {servers : List (String × String)} {e : String × String} {text : String}

theorem Listable.entryOf?_eq (listable : Listable e) : entryOf? (pairText e) = some e := by
  obtain ⟨name, address, noEquals, -⟩ := listable
  have entry : ServerEntry (pairText e) e.1 e.2 :=
    ⟨⟨e.1, e.2, rfl, noEquals, name.2, address.trimmed.2⟩, name.1, address.trimmed.1⟩
  exact entryOf?_eq_some_iff.mpr ⟨e.2, entry, ⟨0, by simp⟩, address.bare⟩

theorem Listable.comma_not_mem (listable : Listable e) : ',' ∉ (pairText e).toList := by
  rw [pairText, String.toList_append, String.toList_append, List.mem_append, List.mem_append, not_or, not_or]
  exact ⟨⟨listable.noComma.1, by decide⟩, listable.noComma.2⟩

theorem readToolServers_of_blank (blank : isBlankText text = true) : readToolServers text = .ok [] := by
  have cut : CutAt ',' text [text] := by
    refine ⟨List.cons_ne_nil _ _, ?_, rfl⟩
    intro part member inside
    rw [List.mem_singleton.mp member] at inside
    have comma : isBlank ',' = true := List.all_eq_true.mp blank ',' inside
    exact absurd comma (by decide)
  have refused : entryOf? text = none := by
    rw [entryOf?, (Text.trim_eq_empty_iff text).mpr blank]
    rfl
  refine (readToolServers_eq_ok_iff cut).mpr ⟨?_, ?_⟩
  · intro raw member shown
    rw [List.mem_singleton.mp member, blank] at shown
    cases shown
  · rw [List.filterMap_cons_none refused]
    exact byName_eq_self List.Pairwise.nil

theorem filterMap_pairText (listable : ∀ e ∈ servers, Listable e) :
    (servers.map pairText).filterMap entryOf? = servers := by
  have each : ∀ e ∈ servers, (entryOf? ∘ pairText) e = some e := by
    intro e there
    rw [Function.comp_apply, (listable e there).entryOf?_eq]
  rw [List.filterMap_map, List.filterMap_congr each, List.filterMap_some]

theorem cutAt_listText (given : servers ≠ []) (listable : ∀ e ∈ servers, Listable e) :
    CutAt ',' (listText servers) (servers.map pairText) where
  nonempty := by simpa using given
  apart := by
    intro part member
    obtain ⟨e, there, rfl⟩ := List.mem_map.mp member
    exact (listable e there).comma_not_mem
  joined := by
    have comma : String.singleton ',' = "," := rfl
    rw [comma, listText]

theorem readToolServers_listText (ordered : servers.Pairwise fun a b => a.1 < b.1)
    (listable : ∀ e ∈ servers, Listable e) : readToolServers (listText servers) = .ok servers := by
  by_cases given : servers = []
  · rw [given, show listText [] = "" from rfl]
    exact readToolServers_of_blank rfl
  · refine (readToolServers_eq_ok_iff (cutAt_listText given listable)).mpr ⟨?_, ?_⟩
    · intro raw member _
      obtain ⟨e, there, rfl⟩ := List.mem_map.mp member
      obtain ⟨address, entry, -⟩ := entryOf?_eq_some_iff.mp (listable e there).entryOf?_eq
      exact ⟨e.1, address, entry⟩
    · rw [filterMap_pairText listable]
      exact byName_eq_self ordered

end Written

/-! ## Settings -/

section Settings
variable {lookup : String → Option String} {settings : Settings}

theorem toolServers_of_missing (missing : (lookup "CREWFORGE_TOOL_SERVERS").filter (fun v => !isBlankText v) = none)
    (read : Settings.ofVariables lookup = .ok settings) : settings.toolServers = [] := by
  unfold Settings.ofVariables at read
  simp only [missing, bind, Except.bind] at read
  split at read
  · split at read
    · cases read
    · cases read
      rfl
  · cases read
    rfl

theorem toolServers_of_given {text : String}
    (given : (lookup "CREWFORGE_TOOL_SERVERS").filter (fun v => !isBlankText v) = some text)
    (read : Settings.ofVariables lookup = .ok settings) : readToolServers text = .ok settings.toolServers := by
  unfold Settings.ofVariables at read
  simp only [given, bind, Except.bind, pure, Except.pure] at read
  split at read
  · split at read
    · cases read
    · split at read
      · cases read
      · next found =>
        cases read
        exact found
  · split at read
    · cases read
    · next found =>
      cases read
      exact found

theorem toolServers_ofVariables (read : Settings.ofVariables lookup = .ok settings) :
    readToolServers ((lookup "CREWFORGE_TOOL_SERVERS").getD "") = .ok settings.toolServers := by
  cases given : (lookup "CREWFORGE_TOOL_SERVERS").filter fun v => !isBlankText v with
  | none =>
      rw [toolServers_of_missing given read]
      refine readToolServers_of_blank ?_
      cases value : lookup "CREWFORGE_TOOL_SERVERS" with
      | none => rfl
      | some text => simpa [value] using given
  | some text =>
      rw [(Option.filter_eq_some_iff.mp given).1]
      exact toolServers_of_given given read

end Settings

/-! ## What lists come to -/

/-- A list is cut at its commas in one way, and it is read exactly when each piece that is not blank is an entry. It
then gives the servers that its pieces name. Their names are trimmed and no address ends in a slash, and an address can
be used unless the last entry of its name has its slashes alone. Servers that can be listed are read back from the list
that is written of them, and settings have the servers of the list in their variable. -/
theorem servers_usable_unless_slashes_alone (text : String) (servers : List (String × String)) :
    (∃ raws, (∀ parts, CutAt ',' text parts ↔ parts = raws) ∧
      ((∃ found, readToolServers text = .ok found) ↔ Readable raws) ∧
      (readToolServers text = .ok servers ↔ NamedBy raws servers) ∧
      (readToolServers text = .ok servers →
        (∀ e ∈ servers, Trimmed e.1 ∧ e.2.toList.getLast? ≠ some '/') ∧
        ∀ e ∈ servers, (UsableAddress e.2 ↔ ¬∃ address, LastEntry raws e.1 address ∧ SlashesAlone address))) ∧
    (servers.Pairwise (fun a b => a.1 < b.1) → (∀ e ∈ servers, Listable e) →
      readToolServers (listText servers) = .ok servers) ∧
    ∀ lookup settings, Settings.ofVariables lookup = .ok settings →
      readToolServers ((lookup "CREWFORGE_TOOL_SERVERS").getD "") = .ok settings.toolServers := by
  refine ⟨?_, readToolServers_listText, fun lookup settings => toolServers_ofVariables⟩
  obtain ⟨raws, cut, only⟩ := Text.existsUnique_cutAt ',' text
  refine ⟨raws, fun parts => ⟨only parts, fun same => same ▸ cut⟩, exists_readToolServers_iff cut,
    readToolServers_iff cut, fun read => ?_⟩
  have named := (readToolServers_iff cut).mp read
  constructor
  · rintro ⟨name, url⟩ member
    obtain ⟨address, ⟨-, raw, -, -, entry, -⟩, bare⟩ := (named.mem_iff name url).mp member
    exact ⟨entry.trimmed.1, bare.bare⟩
  · rintro ⟨name, url⟩ member
    exact named.usable_iff member

def docsAndSearch : List (String × String) := [("docs", "http://docs:9000"), ("search", "http://s?q=/x")]

def docsList : String := "docs=/,docs=http://docs:9000//, search = http://s?q=/x"

theorem docs_and_search_usable :
    let raws := ["docs=/", "docs=http://docs:9000//", " search = http://s?q=/x"]
    let lookup name := if name = "CREWFORGE_TOOL_SERVERS" then some docsList else none
    CutAt ',' docsList raws ∧ readToolServers docsList = .ok docsAndSearch ∧ NamedBy raws docsAndSearch ∧
      (∀ e ∈ docsAndSearch, UsableAddress e.2 ∧ ¬∃ address, LastEntry raws e.1 address ∧ SlashesAlone address) ∧
      readToolServers (listText docsAndSearch) = .ok docsAndSearch ∧
      Settings.ofVariables lookup = .ok { Settings.default with toolServers := docsAndSearch } := by
  intro raws lookup
  have cut : CutAt ',' docsList raws := ⟨by decide, by decide, by decide⟩
  have read : readToolServers docsList = .ok docsAndSearch :=
    readToolServers_of_last [("docs", ""), ("docs", "http://docs:9000"), ("search", "http://s?q=/x")]
      (by decide +kernel) (by decide +kernel) (by decide +kernel)
  have settled : Settings.ofVariables lookup = .ok { Settings.default with toolServers := docsAndSearch } := by
    have whole : Settings.ofVariables lookup =
        (readToolServers docsList).map fun servers => { Settings.default with toolServers := servers } := by
      rfl
    rw [whole, read]
    rfl
  have good : ∀ e ∈ docsAndSearch, Listable e := by decide +kernel
  obtain ⟨⟨parts, only, -, reads, usable⟩, written, settings⟩ :=
    servers_usable_unless_slashes_alone docsList docsAndSearch
  obtain rfl : raws = parts := (only raws).mp cut
  have named := reads.mp read
  have told := settings lookup _ settled
  rw [show lookup "CREWFORGE_TOOL_SERVERS" = some docsList from rfl] at told
  refine ⟨cut, told, named, fun e member => ?_, written named.ordered good, settled⟩
  exact ⟨(good e member).address, ((usable read).2 e member).mp (good e member).address⟩

/-- Slashes alone leave an address that is empty or ends in white space. -/
theorem slashes_alone_leave_unusable :
    (readToolServers "docs=/" = .ok [("docs", "")] ∧ ¬UsableAddress "") ∧
      readToolServers "docs=http://s /" = .ok [("docs", "http://s ")] ∧ ¬UsableAddress "http://s " :=
  ⟨⟨by decide +kernel, by decide⟩, by decide +kernel, by decide⟩

end CrewFlow.Service
