import Mathlib
import CrewFlow.Proofs.Remote.Attempts
/-!
# Excerpts of invalid bodies

Of a body that is no JSON the first bytes are told. They are a part of its text only where a character ends
behind them. A chat whose last reply is such a body, with a character over that place, comes to nothing that can
be told.
-/
set_option autoImplicit false

namespace CrewFlow.Remote

/-! ## Bytes at the front of a text -/

theorem utf8ByteSize_cons (c : Char) (cs : List Char) :
    (String.ofList (c :: cs)).utf8ByteSize = c.utf8Size + (String.ofList cs).utf8ByteSize := by
  rw [String.ofList_cons, String.utf8ByteSize_append, String.utf8ByteSize_singleton]

theorem takeBytes?_cons {count : Nat} {c : Char} (cs : List Char) (fits : c.utf8Size ≤ count) :
    takeBytes? count (c :: cs) = (takeBytes? (count - c.utf8Size) cs).map (c :: ·) := by
  have some_byte := c.utf8Size_pos
  cases count with
  | zero => omega
  | succ count => rw [takeBytes?, if_pos fits]

theorem takeBytes?_append (front back : List Char) :
    takeBytes? (String.ofList front).utf8ByteSize (front ++ back) = some front := by
  induction front with
  | nil => simp [takeBytes?]
  | cons c front ih =>
      rw [utf8ByteSize_cons, List.cons_append, takeBytes?_cons _ (Nat.le_add_right _ _), Nat.add_sub_cancel_left, ih]
      rfl

theorem takeBytes?_inside {count : Nat} {c : Char} (front back : List Char)
    (before : (String.ofList front).utf8ByteSize < count)
    (behind : count < (String.ofList front).utf8ByteSize + c.utf8Size) :
    takeBytes? count (front ++ c :: back) = none := by
  induction front generalizing count with
  | nil =>
      cases count with
      | zero => cases before
      | succ count =>
          have wide : ¬c.utf8Size ≤ count + 1 := by simpa using behind
          rw [List.nil_append, takeBytes?, if_neg wide]
  | cons d front ih =>
      rw [utf8ByteSize_cons] at before behind
      rw [List.cons_append, takeBytes?_cons _ (by omega), ih (by omega) (by omega)]
      rfl

theorem split_of_takeBytes? {count : Nat} {cs front : List Char} (taken : takeBytes? count cs = some front) :
    ∃ back, cs = front ++ back ∧ (String.ofList front).utf8ByteSize = count := by
  fun_induction takeBytes? count cs generalizing front with
  | case1 cs =>
      cases taken
      exact ⟨cs, rfl, rfl⟩
  | case2 count => cases taken
  | case3 count c cs fits ih =>
      obtain ⟨rest, later, rfl⟩ := Option.map_eq_some_iff.mp taken
      obtain ⟨back, rfl, size⟩ := ih later
      refine ⟨back, rfl, ?_⟩
      rw [utf8ByteSize_cons, size]
      omega
  | case4 count c cs wide => cases taken

theorem excerpt?_eq_some_iff {body excerpt : String} :
    excerpt? body = some excerpt ↔
      ∃ rest, body = excerpt ++ rest ∧ excerpt.utf8ByteSize = min body.utf8ByteSize excerptBytes := by
  rw [excerpt?, Option.map_eq_some_iff]
  constructor
  · rintro ⟨front, taken, rfl⟩
    obtain ⟨back, split, size⟩ := split_of_takeBytes? taken
    refine ⟨String.ofList back, ?_, size⟩
    rw [← String.toList_inj, split, String.toList_append, String.toList_ofList, String.toList_ofList]
  · rintro ⟨rest, split, size⟩
    refine ⟨excerpt.toList, ?_, String.ofList_toList⟩
    have taken := takeBytes?_append excerpt.toList rest.toList
    rwa [String.ofList_toList, size, ← String.toList_append, ← split] at taken

/-- Where the excerpt of a body ends. -/
def excerptEnd (body : String) : String.Pos.Raw := ⟨min body.utf8ByteSize excerptBytes⟩

theorem excerpt?_isSome_iff (body : String) : (excerpt? body).isSome = true ↔ (excerptEnd body).IsValid body := by
  rw [Option.isSome_iff_exists, String.Pos.Raw.isValid_iff_exists_append]
  constructor
  · rintro ⟨excerpt, taken⟩
    obtain ⟨rest, split, size⟩ := excerpt?_eq_some_iff.mp taken
    exact ⟨excerpt, rest, split, String.Pos.Raw.ext size.symm⟩
  · rintro ⟨excerpt, rest, split, size⟩
    exact ⟨excerpt, excerpt?_eq_some_iff.mpr ⟨rest, split, (congrArg String.Pos.Raw.byteIdx size).symm⟩⟩

/-! ## Bodies -/

theorem completionText_eq_error {v : Json.Value} {e : ChatError} (failed : completionText v = .error e) :
    e = .noMessage := by
  unfold completionText at failed
  dsimp only at failed
  split at failed
  · cases failed
  · cases failed
    rfl

theorem readBody_eq_splitCharacter_iff (body : String) :
    readBody body = .error .splitCharacter ↔ Json.parse? body = none ∧ ¬(excerptEnd body).IsValid body := by
  rw [← excerpt?_isSome_iff, Option.not_isSome_iff_eq_none]
  unfold readBody
  cases Json.parse? body with
  | some v =>
      refine ⟨fun failed => ?_, nofun⟩
      cases completionText_eq_error failed
  | none => cases excerpt? body <;> simp

theorem split_of_readBody {body excerpt : String} (invalid : readBody body = .error (.invalid excerpt)) :
    Json.parse? body = none ∧
      ∃ rest, body = excerpt ++ rest ∧ excerpt.utf8ByteSize = min body.utf8ByteSize excerptBytes := by
  unfold readBody at invalid
  split at invalid
  · cases completionText_eq_error invalid
  · next absent =>
    split at invalid
    · next taken =>
      cases invalid
      exact ⟨absent, excerpt?_eq_some_iff.mp taken⟩
    · cases invalid

/-! ## Replies -/

/-- Neither the request nor the other service is at fault. -/
structure Reply.Served (r : Reply) : Prop where
  client : r.isClientError = false
  server : r.isServerError = false

theorem ofOutcome_served {r : Reply} (served : r.Served) : Attempt.ofOutcome (.ok r) = .decided (readBody r.body) := by
  have seldom : r.status ≠ tooManyRequests := by
    intro often
    have client := served.client
    simp [Reply.isClientError, often, tooManyRequests] at client
  simp [Attempt.ofOutcome, seldom, served.client, served.server]

/-- An error that says nothing of sending or of the status was met in the body. -/
theorem served_of_result {outcome : Except String Reply} {e : ChatError}
    (failed : (Attempt.ofOutcome outcome).result = .error e) (transport : ∀ cause, e ≠ .transport cause)
    (unavailable : ∀ status, e ≠ .unavailable status) (refused : ∀ status body, e ≠ .refused status body) :
    ∃ r, outcome = .ok r ∧ r.Served ∧ readBody r.body = .error e := by
  cases outcome with
  | error cause =>
      cases failed
      exact absurd rfl (transport cause)
  | ok r =>
      unfold Attempt.ofOutcome at failed
      dsimp only at failed
      split at failed
      · cases failed
        exact absurd rfl (unavailable r.status)
      · next served =>
        split at failed
        · cases failed
          exact absurd rfl (refused r.status r.body)
        · next accepted =>
          simp only [Bool.or_eq_true, not_or, Bool.not_eq_true] at served accepted
          exact ⟨r, rfl, ⟨accepted, served.2⟩, failed⟩

theorem served_of_chat {c : ChatClient} {messages : List (String × String)} {outcomes : Nat → Except String Reply}
    {e : ChatError} (failed : (c.chat messages outcomes).1 = .error e) (key : e ≠ .noKey)
    (transport : ∀ cause, e ≠ .transport cause) (unavailable : ∀ status, e ≠ .unavailable status)
    (refused : ∀ status body, e ≠ .refused status body) :
    c.key ≠ none ∧ ∃ n r, LastAsked outcomes c.retries n ∧ outcomes n = .ok r ∧ r.Served ∧
      readBody r.body = .error e := by
  cases keyed : c.key with
  | none =>
      rw [chat_of_keyless keyed] at failed
      cases failed
      exact absurd rfl key
  | some given =>
      obtain ⟨n, last, result⟩ := chat_of_keyed outcomes keyed messages
      rw [result] at failed
      obtain ⟨r, reply, served, read⟩ := served_of_result failed transport unavailable refused
      exact ⟨nofun, n, r, last, reply, served, read⟩

/-- A chat cannot tell what it came to exactly when its last reply is a served one that is no JSON and has a
character over the end of the excerpt. Whatever excerpt it tells is that part of the reply's body. -/
theorem chat_untold_iff (c : ChatClient) (messages : List (String × String)) (outcomes : Nat → Except String Reply) :
    ((c.chat messages outcomes).1 = .error .splitCharacter ↔
      c.key ≠ none ∧ ∃ n r, LastAsked outcomes c.retries n ∧ outcomes n = .ok r ∧ r.Served ∧
        Json.parse? r.body = none ∧ ¬(excerptEnd r.body).IsValid r.body) ∧
    ∀ excerpt, (c.chat messages outcomes).1 = .error (.invalid excerpt) →
      ∃ n r rest, LastAsked outcomes c.retries n ∧ outcomes n = .ok r ∧ r.Served ∧ Json.parse? r.body = none ∧
        r.body = excerpt ++ rest ∧ excerpt.utf8ByteSize = min r.body.utf8ByteSize excerptBytes := by
  refine ⟨⟨fun untold => ?_, ?_⟩, fun excerpt told => ?_⟩
  · obtain ⟨key, n, r, last, reply, served, read⟩ := served_of_chat untold nofun nofun nofun nofun
    exact ⟨key, n, r, last, reply, served, (readBody_eq_splitCharacter_iff r.body).mp read⟩
  · rintro ⟨key, n, r, last, reply, served, inside⟩
    obtain ⟨given, keyed⟩ := Option.ne_none_iff_exists'.mp key
    obtain ⟨k, asked, result⟩ := chat_of_keyed outcomes keyed messages
    obtain rfl := asked.unique last
    rw [result, reply, ofOutcome_served served]
    exact (readBody_eq_splitCharacter_iff r.body).mpr inside
  · obtain ⟨_, n, r, last, reply, served, read⟩ := served_of_chat told nofun nofun nofun nofun
    obtain ⟨absent, rest, split, size⟩ := split_of_readBody read
    exact ⟨n, r, rest, last, reply, served, absent, split, size⟩

/-- A client that sends its requests once more. -/
def patient : ChatClient := { ChatClient.make "m" (some "key") none with retries := 1 }

/-- A service that is down at first and then answers with a body. -/
def recovering (body : String) : Nat → Except String Reply
  | 0 => .ok ⟨503, ""⟩
  | _ + 1 => .ok ⟨200, body⟩

theorem chat_recovering (body : String) : (patient.chat [] (recovering body)).1 = readBody body := by
  have second : LastAsked (recovering body) patient.retries 1 := by
    refine ⟨le_rfl, fun i before => ?_, .inl rfl⟩
    obtain rfl := Nat.lt_one_iff.mp before
    exact ⟨.unavailable 503, rfl⟩
  obtain ⟨n, last, result⟩ := chat_of_keyed (recovering body) (show patient.key = some "key" from rfl) []
  obtain rfl := last.unique second
  rw [result, recovering, ofOutcome_served ⟨rfl, rfl⟩, Attempt.result]

theorem short_body_told :
    (patient.chat [] (recovering "gone")).1 = .error (.invalid "gone") ∧
      ∃ n r rest, LastAsked (recovering "gone") 1 n ∧ recovering "gone" n = .ok r ∧ r.body = "gone" ++ rest := by
  have told : (patient.chat [] (recovering "gone")).1 = .error (.invalid "gone") := by
    rw [chat_recovering]
    cbv
  obtain ⟨n, r, rest, last, reply, _, _, split, _⟩ := (chat_untold_iff patient [] (recovering "gone")).2 "gone" told
  exact ⟨told, n, r, rest, last, reply, split⟩

/-- A page of so many letters and a last one that takes two bytes. -/
def page (letters : Nat) : String := String.ofList (List.replicate letters 'x' ++ ['é'])

theorem parse?_page {letters : Nat} (given : letters ≠ 0) : Json.parse? (page letters) = none := by
  have visible : Json.isJsonSpace 'x' = false := by decide
  obtain ⟨others, rfl⟩ := Nat.exists_eq_succ_of_ne_zero given
  rw [Json.parse?, page, String.toList_ofList, List.replicate_succ, List.cons_append]
  simp [Json.value?, Json.skipSpace, visible]

theorem utf8ByteSize_letters (letters : Nat) : (String.ofList (List.replicate letters 'x')).utf8ByteSize = letters := by
  induction letters with
  | zero => rfl
  | succ letters ih =>
      have one : 'x'.utf8Size = 1 := by decide
      rw [List.replicate_succ, utf8ByteSize_cons, ih, one, Nat.add_comm]

theorem excerpt?_page {letters : Nat} (full : letters + 1 = excerptBytes) : excerpt? (page letters) = none := by
  have two : 'é'.utf8Size = 2 := by decide
  have size : (page letters).utf8ByteSize = letters + 2 := by
    rw [page, String.ofList_append, String.utf8ByteSize_append, utf8ByteSize_letters, utf8ByteSize_cons, two]
    rfl
  have taken : takeBytes? excerptBytes (List.replicate letters 'x' ++ 'é' :: []) = none := by
    apply takeBytes?_inside
    · rw [utf8ByteSize_letters]
      omega
    · rw [utf8ByteSize_letters, two]
      omega
  rw [excerpt?, size, Nat.min_eq_right (by omega), page, String.toList_ofList, taken]
  rfl

theorem readBody_page {letters : Nat} (full : letters + 1 = excerptBytes) :
    readBody (page letters) = .error .splitCharacter := by
  have given : letters ≠ 0 := by
    rintro rfl
    cases full
  rw [readBody, parse?_page given, excerpt?_page full]

/-- A page of 501 bytes is no JSON, and its excerpt would end inside its last letter. -/
theorem long_page_untold :
    (patient.chat [] (recovering (page 499))).1 = .error .splitCharacter ∧ Json.parse? (page 499) = none ∧
      ¬(excerptEnd (page 499)).IsValid (page 499) := by
  have untold : readBody (page 499) = .error .splitCharacter := readBody_page rfl
  exact ⟨(chat_recovering (page 499)).trans untold, (readBody_eq_splitCharacter_iff (page 499)).mp untold⟩

end CrewFlow.Remote
