import ClusterAccess.Proofs.Identity.Payload
import ClusterAccess.Proofs.Json.Members
import Mathlib.Data.List.Induction

/-!
# What decides about claims

Of the members of a payload only the subject can be refused.  The informative ones are taken if they
are strings and dropped if they are anything else that can be read; unknown ones are passed over.
So the claims that a payload comes to can be told from the texts of its members (`readAll_eq`), and
payloads with the same subject have the same user or the same error, whatever else is in them and
wherever it stands (`readAll_ignores_metadata`).
-/

namespace ClusterAccess.Claims

open Json (Failure Reader Source Spelled textOf valuesOf valuesOf_append valuesOf_snoc)
open Json.Reader (outcome required takeMember)

/-! ## Members and their texts -/

/-- The value that the text of a claim is.  One bracket is open around it. -/
def claimOf? (text : Source) : Option Json := Json.valueOf? (Reader.greatestNesting - 1) text

/-- Members among which nothing can be refused but the subject: no claim is repeated, and the
informative ones are values that can be read. -/
structure Regular (members : List (String × Source)) : Prop where
  once : ∀ name ∈ ["user_id", "username", "auth_type"], (valuesOf name members).length ≤ 1
  readable : ∀ name ∈ ["username", "auth_type"], ∀ text ∈ valuesOf name members,
    (claimOf? text).isSome

/-- A payload that is an object with such members.  The names of the others can be read, and their
values are well-formed, of any depth and with numbers of any size. -/
structure Framed (payload : Source) (members : List (String × Source)) : Prop
    extends Regular members where
  object : Json.members? payload = some members

/-- The user that the text of a subject names. -/
def subjectOfText (text : Source) : Except (Failure SubjectError) UserId := do
  let value ← required (claimOf? text)
  (subjectOf value).mapError .rejected

/-- The user of the first of several texts. -/
def subjectOfTexts : List Source → Except (Failure SubjectError) (Option UserId)
  | [] => return none
  | text :: _ => return some (← subjectOfText text)

/-- What the text of an informative claim says, if it is a string. -/
def stringOf? (text : Source) : Option String := (claimOf? text).bind textOf?

/-- What a member makes of the claims by the text of its value. -/
def Draft.take (d : Draft) (member : String × Source) : Except (Failure SubjectError) Draft :=
  if member.1 = "user_id" then do return { d with user := some (← subjectOfText member.2) }
  else if member.1 = "username" then do
    return { d with username := some (textOf? (← required (claimOf? member.2))) }
  else if member.1 = "auth_type" then do
    return { d with authType := some ((textOf? (← required (claimOf? member.2))).map .ofName) }
  else return d

/-- The claims that are told by the texts of all members. -/
def Draft.ofMembers (members : List (String × Source)) : Except (Failure SubjectError) Draft := do
  let user ← subjectOfTexts (valuesOf "user_id" members)
  return {
    user
    username := (valuesOf "username" members).head?.map stringOf?
    authType := (valuesOf "auth_type" members).head?.map fun text => (stringOf? text).map .ofName }

/-! ## One member -/

section Member

variable {source : Source} {d : Draft}

theorem outcome_map {ε α β : Type} (x : Reader ε α) (f : α → β) (s : Source) :
    outcome ((do return f (← x)) s) = (do return f (← outcome (x s))) := by
  cases hx : x s with
  | ok a r =>
    rw [Reader.bind_of_ok hx]
    rfl
  | error e r =>
    rw [Reader.bind_of_error hx]
    rfl

theorem outcome_subject (h : Spelled source) :
    outcome (subject (Reader.greatestNesting - 1) source) = subjectOfText (textOf source) := by
  have hvalue := Reader.outcome_value (ε := SubjectError) (Reader.greatestNesting - 1) h
  rw [subjectOfText, claimOf?, ← hvalue]
  cases hx : Reader.value (ε := SubjectError) (Reader.greatestNesting - 1) source with
  | ok value r =>
    rw [subject, Reader.bind_of_ok hx]
    change _ = (subjectOf value).mapError Failure.rejected
    cases subjectOf value <;> rfl
  | error e r =>
    rw [subject, Reader.bind_of_error hx]
    rfl

/-- The three claims are found by their names, and no others. -/
theorem find?_fields (nesting : Nat) (name : String) :
    (Draft.fields nesting).find? (fun field => decide (field.name = name)) =
      if name = "user_id" then (Draft.fields nesting)[0]?
      else if name = "username" then (Draft.fields nesting)[1]?
      else if name = "auth_type" then (Draft.fields nesting)[2]? else none := by
  simp only [Draft.fields, List.find?_cons, List.find?_nil, eq_comm (a := name)]
  by_cases huser : "user_id" = name
  · simp [huser]
  by_cases husername : "username" = name
  · simp [huser, husername]
  by_cases hauth : "auth_type" = name
  · simp [huser, husername, hauth]
  · simp [huser, husername, hauth]

/-- **A member is taken by the text of its value**, if it is the first one with its name. -/
theorem takeMember_eq {name : String} (h : Spelled source)
    (huser : name = "user_id" → d.user = none) (husername : name = "username" → d.username = none)
    (hauth : name = "auth_type" → d.authType = none) :
    takeMember (Draft.fields (Reader.greatestNesting - 1)) d (name, source) =
      d.take (name, textOf source) := by
  have hvalue := Reader.outcome_value (ε := SubjectError) (Reader.greatestNesting - 1) h
  rw [← claimOf?] at hvalue
  simp only [takeMember, Reader.namedField, find?_fields, Draft.take]
  by_cases hname : name = "user_id"
  · subst hname
    simp only [if_true, Draft.fields, List.getElem?_cons_zero, huser rfl, Option.isSome_none,
      Bool.false_eq_true, if_false, outcome_map, outcome_subject h]
  rw [if_neg hname, if_neg hname]
  by_cases hname : name = "username"
  · subst hname
    simp only [if_true, Draft.fields, List.getElem?_cons_succ, List.getElem?_cons_zero,
      husername rfl, Option.isSome_none, Bool.false_eq_true, if_false, outcome_map, hvalue]
  rw [if_neg hname, if_neg hname]
  by_cases hname : name = "auth_type"
  · subst hname
    simp only [if_true, Draft.fields, List.getElem?_cons_succ, List.getElem?_cons_zero,
      hauth rfl, Option.isSome_none, Bool.false_eq_true, if_false, outcome_map, hvalue]
  rw [if_neg hname, if_neg hname]
  obtain ⟨rest, hpassed, -⟩ := h
  obtain ⟨_, hskip, -⟩ := Reader.follows_skip (δ := SubjectError) _ (Nat.le_refl _) hpassed
  dsimp only
  rw [Reader.bind_of_ok hskip]
  rfl

end Member

/-! ## All members -/

theorem Regular.of_append {members later : List (String × Source)}
    (h : Regular (members ++ later)) : Regular members where
  once name hname := by
    have honce := h.once name hname
    rw [valuesOf_append, List.length_append] at honce
    exact Nat.le_trans (Nat.le_add_right _ _) honce
  readable name hname text htext := by
    refine h.readable name hname text ?_
    rw [valuesOf_append]
    exact List.mem_append_left _ htext

/-- A claim that comes is the first one with its name. -/
theorem Regular.first {members : List (String × Source)} {name claim : String} {text : Source}
    (h : Regular (members ++ [(name, text)])) (hname : name = claim)
    (hclaim : claim ∈ ["user_id", "username", "auth_type"]) : valuesOf claim members = [] := by
  have honce := h.once claim hclaim
  rw [valuesOf_snoc, if_pos hname, List.length_append] at honce
  exact List.eq_nil_of_length_eq_zero (Nat.le_zero.mp (Nat.le_of_succ_le_succ honce))

/-- A member is taken where the ones before it have been. -/
theorem Draft.ofMembers_append {members : List (String × Source)} {member : String × Source}
    (h : Regular (members ++ [member])) :
    ofMembers (members ++ [member]) = ofMembers members >>= fun d => d.take member := by
  obtain ⟨name, text⟩ := member
  have hreadable (hname : name ∈ ["username", "auth_type"]) : (claimOf? text).isSome := by
    refine h.readable name hname text ?_
    rw [valuesOf_snoc, if_pos rfl]
    exact List.mem_append_right _ (.head _)
  by_cases huser : name = "user_id"
  · subst huser
    simp only [ofMembers, Draft.take, valuesOf_snoc, h.first rfl (.head _), String.reduceEq,
      ↓reduceIte, List.append_nil, List.nil_append, subjectOfTexts]
    cases subjectOfText text <;> rfl
  by_cases husername : name = "username"
  · subst husername
    obtain ⟨value, hvalue⟩ := Option.isSome_iff_exists.mp (hreadable (.head _))
    simp only [ofMembers, Draft.take, valuesOf_snoc, h.first rfl (.tail _ (.head _)),
      String.reduceEq, ↓reduceIte, List.append_nil, List.nil_append, List.head?_cons,
      Option.map_some, stringOf?, hvalue, required]
    cases subjectOfTexts (valuesOf "user_id" members) <;> rfl
  by_cases hauth : name = "auth_type"
  · subst hauth
    obtain ⟨value, hvalue⟩ := Option.isSome_iff_exists.mp (hreadable (.tail _ (.head _)))
    simp only [ofMembers, Draft.take, valuesOf_snoc, h.first rfl (.tail _ (.tail _ (.head _))),
      String.reduceEq, ↓reduceIte, List.append_nil, List.nil_append, List.head?_cons,
      Option.map_some, stringOf?, hvalue, required]
    cases subjectOfTexts (valuesOf "user_id" members) <;> rfl
  · simp only [ofMembers, Draft.take, valuesOf_snoc, huser, husername, hauth, if_false,
      List.append_nil, bind_pure]

/-- What has been read of the claims is told by the members so far. -/
theorem Draft.isNone_of_ofMembers {members : List (String × Source)} {d : Draft}
    (h : ofMembers members = .ok d) :
    (valuesOf "user_id" members = [] → d.user = none) ∧
      (valuesOf "username" members = [] → d.username = none) ∧
      (valuesOf "auth_type" members = [] → d.authType = none) := by
  unfold ofMembers at h
  cases hsubject : subjectOfTexts (valuesOf "user_id" members) with
  | error e =>
    rw [hsubject] at h
    cases h
  | ok user =>
    rw [hsubject] at h
    cases h
    refine ⟨fun hnil => ?_, fun hnil => ?_, fun hnil => ?_⟩
    · rw [hnil] at hsubject
      cases hsubject
      rfl
    · simp only [hnil, List.head?_nil, Option.map_none]
    · simp only [hnil, List.head?_nil, Option.map_none]

/-- **The claims of an object are told by the texts of its members.** -/
theorem foldlM_takeMember {entries : List (String × Source)}
    (hspelled : ∀ entry ∈ entries, Spelled entry.2)
    (h : Regular (entries.map fun entry => (entry.1, textOf entry.2))) :
    entries.foldlM (takeMember (Draft.fields (Reader.greatestNesting - 1))) {} =
      Draft.ofMembers (entries.map fun entry => (entry.1, textOf entry.2)) := by
  induction entries using List.reverseRecOn with
  | nil => rfl
  | append_singleton entries entry ih =>
    obtain ⟨name, source⟩ := entry
    rw [List.map_append, List.map_cons, List.map_nil] at h ⊢
    rw [Draft.ofMembers_append h, List.foldlM_append,
      ih (fun entry hentry => hspelled entry (List.mem_append_left _ hentry)) h.of_append]
    cases hdraft : Draft.ofMembers (entries.map fun entry => (entry.1, textOf entry.2)) with
    | error e => rfl
    | ok d =>
      obtain ⟨huser, husername, hauth⟩ := Draft.isNone_of_ofMembers hdraft
      have hsource := hspelled (name, source) (List.mem_append_right _ (.head _))
      have htake : takeMember _ d (name, source) = _ := takeMember_eq hsource
        (fun hname => huser (h.first hname (.head _)))
        (fun hname => husername (h.first hname (.tail _ (.head _))))
        (fun hname => hauth (h.first hname (.tail _ (.tail _ (.head _)))))
      change (takeMember _ d (name, source) >>= pure) = d.take (name, textOf source)
      rw [bind_pure, htake]

/-! ## Whole payloads -/

/-- The members of an object, as they stand in the source. -/
theorem Framed.entries {payload : Source} {members : List (String × Source)}
    (h : Framed payload members) :
    ∃ entries r t, Reader.entries (ε := Empty) payload = .ok entries r ∧
      Reader.dropSpaces r = [] ∧ Reader.dropSpaces payload = .char '\x7b' :: t ∧
      (∀ entry ∈ entries, Spelled entry.2) ∧
      members = entries.map fun entry => (entry.1, textOf entry.2) := by
  obtain ⟨entries, hentries, rfl⟩ := Option.map_eq_some_iff.mp h.object
  unfold Json.entries? at hentries
  cases hread : (Reader.entries (ε := Empty)).readAll payload with
  | error e =>
    rw [hread] at hentries
    cases hentries
  | ok found =>
    rw [hread] at hentries
    obtain rfl := Option.some.inj hentries
    obtain ⟨r, hfound, hblank⟩ := Reader.readAll_ok hread
    obtain ⟨t, u, hopen, hwalk, -⟩ := Reader.walk_of_entries hfound
    exact ⟨found, r, t, hfound, hblank, Reader.expect_ok hopen, hwalk.spelled, rfl⟩

/-- The claims that are complete when everything has been read. -/
def Draft.finish (d : Draft) : Except (Failure SubjectError) Claims := do
  return {
    user := ← required d.user
    username := d.username.getD none
    authType := d.authType.getD none }

theorem readAll_eq_finish {payload : Source} {members : List (String × Source)}
    (h : Framed payload members) :
    readAll payload = Draft.ofMembers members >>= Draft.finish := by
  obtain ⟨entries, r, t, hentries, hblank, hbrace, hspelled, hmembers⟩ := h.entries
  have hrecord : Reader.record Draft.fields {} Reader.greatestNesting payload = _ :=
    Reader.record_of_brace hbrace
  have hends := Reader.endsAs_object (fun field hfield d m =>
    skip_follows_fields (Reader.greatestNesting - 1) m field hfield d) hentries {}
  have hregular := h.toRegular
  rw [hmembers] at hregular
  rw [foldlM_takeMember hspelled hregular, ← hmembers] at hends
  rw [readAll, Reader.readAll, read]
  cases hdraft : Draft.ofMembers members with
  | error e =>
    rw [hdraft] at hends
    obtain ⟨u, hends⟩ := hends
    rw [Reader.bind_of_error (hrecord.trans hends)]
    rfl
  | ok d =>
    rw [hdraft] at hends
    rw [Reader.bind_of_ok (hrecord.trans hends)]
    obtain ⟨user, username, authType⟩ := d
    cases user with
    | none => rfl
    | some user => exact if_pos hblank

/-- **What a payload comes to**: its subject has to be there and to name a user, and whatever else
it tells it tells by strings. -/
theorem readAll_eq {payload : Source} {members : List (String × Source)}
    (h : Framed payload members) :
    readAll payload = match valuesOf "user_id" members with
      | [] => .error .unreadable
      | text :: _ => do return {
          user := ← subjectOfText text
          username := (valuesOf "username" members).head?.bind stringOf?
          authType := ((valuesOf "auth_type" members).head?.bind stringOf?).map .ofName } := by
  have hgetD {α : Type} (texts : List Source) (f : Source → Option α) :
      (texts.head?.map f).getD none = texts.head?.bind f := by
    cases texts <;> rfl
  rw [readAll_eq_finish h, Draft.ofMembers]
  cases valuesOf "user_id" members with
  | nil => rfl
  | cons text _ =>
    cases hsubject : subjectOfText text with
    | error e =>
      simp only [subjectOfTexts, hsubject]
      rfl
    | ok user =>
      simp only [subjectOfTexts, hsubject]
      change Except.ok _ = Except.ok _
      simp only [hgetD, Option.map_bind]
      rfl

theorem stringOf?_eq_some_iff {text : Source} {s : String} :
    stringOf? text = some s ↔ claimOf? text = some (.string s) := by
  unfold stringOf?
  cases claimOf? text with
  | none => simp only [Option.bind_none, reduceCtorEq]
  | some value => cases value <;> simp [textOf?]

/-- Of at most one text the first one is any. -/
theorem head?_bind_stringOf? {texts : List Source} (honce : texts.length ≤ 1) {s : String} :
    texts.head?.bind stringOf? = some s ↔ ∃ text ∈ texts, claimOf? text = some (.string s) := by
  cases texts with
  | nil => simp only [List.head?_nil, Option.bind_none, List.not_mem_nil, false_and, exists_false,
      reduceCtorEq]
  | cons text later =>
    obtain rfl : later = [] :=
      List.eq_nil_of_length_eq_zero (Nat.le_zero.mp (Nat.le_of_succ_le_succ honce))
    simp only [List.head?_cons, Option.bind_some, List.mem_singleton, exists_eq_left,
      stringOf?_eq_some_iff]

/-- The user of a payload, or the reason why it has none, is told by the subject alone. -/
theorem user_of_readAll {payload : Source} {members : List (String × Source)}
    (h : Framed payload members) :
    (readAll payload).map Claims.user = match valuesOf "user_id" members with
      | [] => .error .unreadable
      | text :: _ => subjectOfText text := by
  rw [readAll_eq h]
  cases valuesOf "user_id" members with
  | nil => rfl
  | cons text _ =>
    dsimp only
    cases subjectOfText text <;> rfl

/-- What else is told by claims is what is told by strings. -/
theorem metadata_of_readAll {payload : Source} {members : List (String × Source)} {claims : Claims}
    (h : Framed payload members) (hclaims : readAll payload = .ok claims) :
    claims.username = (valuesOf "username" members).head?.bind stringOf? ∧
      claims.authType = ((valuesOf "auth_type" members).head?.bind stringOf?).map .ofName := by
  rw [readAll_eq h] at hclaims
  cases hsubject : valuesOf "user_id" members with
  | nil =>
    rw [hsubject] at hclaims
    cases hclaims
  | cons text _ =>
    rw [hsubject] at hclaims
    dsimp only at hclaims
    cases huser : subjectOfText text with
    | error e =>
      rw [huser] at hclaims
      cases hclaims
    | ok user =>
      rw [huser] at hclaims
      cases hclaims
      exact ⟨rfl, rfl⟩

/-- **Nothing but the subject decides about claims.**  Payloads with the same subject have the same
user or the same error, and what is told besides is what is told by a string. -/
theorem readAll_ignores_metadata {payload payload' : Source}
    {members members' : List (String × Source)} (h : Framed payload members)
    (h' : Framed payload' members')
    (hsame : valuesOf "user_id" members = valuesOf "user_id" members') :
    (readAll payload).map Claims.user = (readAll payload').map Claims.user ∧
      ∀ claims, readAll payload = .ok claims →
        (∀ s, claims.username = some s ↔
          ∃ text ∈ valuesOf "username" members, claimOf? text = some (.string s)) ∧
        ∀ auth, claims.authType = some auth ↔
          ∃ text ∈ valuesOf "auth_type" members, ∃ s, claimOf? text = some (.string s) ∧
            auth = .ofName s := by
  refine ⟨by rw [user_of_readAll h, user_of_readAll h', hsame], fun claims hclaims => ?_⟩
  obtain ⟨husername, hauth⟩ := metadata_of_readAll h hclaims
  have honce := h.once "auth_type" (.tail _ (.tail _ (.head _)))
  refine ⟨fun s => ?_, fun auth => ?_⟩
  · rw [husername]
    exact head?_bind_stringOf? (h.once "username" (.tail _ (.head _)))
  · rw [hauth, Option.map_eq_some_iff]
    constructor
    · rintro ⟨s, hs, rfl⟩
      obtain ⟨text, htext, hvalue⟩ := (head?_bind_stringOf? honce).mp hs
      exact ⟨text, htext, s, hvalue, rfl⟩
    · rintro ⟨text, htext, s, hvalue, rfl⟩
      exact ⟨s, (head?_bind_stringOf? honce).mpr ⟨text, htext, hvalue⟩, rfl⟩

/-- A payload with a name and a way of signing in. -/
def namedPayload : Source :=
  Text.pieces "\x7b\"user_id\":7,\"username\":\"ann\",\"auth_type\":\"saml\"\x7d"

def namedMembers : List (String × Source) := [("user_id", Text.pieces "7"),
  ("username", Text.pieces "\"ann\""), ("auth_type", Text.pieces "\"saml\"")]

/-- A payload with the same subject among values of other kinds and unknown members. -/
def clutteredPayload : Source :=
  Text.pieces ("\x7b\"user\":[1e999,\x7b\"user_id\":8\x7d],\"auth_type\":null,\"user\":\"\"," ++
    " \"user_id\" : 7 ,\"username\":\x7b\"user_id\":9\x7d\x7d")

def clutteredMembers : List (String × Source) := [
  ("user", Text.pieces "[1e999,\x7b\"user_id\":8\x7d]"), ("auth_type", Text.pieces "null"),
  ("user", Text.pieces "\"\""), ("user_id", Text.pieces "7"),
  ("username", Text.pieces "\x7b\"user_id\":9\x7d")]

/-- The cluttered payload has the user of the other one, and tells nothing else. -/
theorem readAll_ignores_metadata_cluttered :
    Framed namedPayload namedMembers ∧ Framed clutteredPayload clutteredMembers ∧
      valuesOf "user_id" namedMembers = valuesOf "user_id" clutteredMembers ∧
      readAll namedPayload =
        .ok { user := ⟨7⟩, username := some "ann", authType := some (.ofName "saml") } ∧
      (readAll namedPayload).map Claims.user = (readAll clutteredPayload).map Claims.user ∧
      ∃ text ∈ valuesOf "username" namedMembers, claimOf? text = some (.string "ann") := by
  have hnamed : Framed namedPayload namedMembers :=
    ⟨⟨by decide +kernel, by decide +kernel⟩, by decide +kernel⟩
  have hcluttered : Framed clutteredPayload clutteredMembers :=
    ⟨⟨by decide +kernel, by decide +kernel⟩, by decide +kernel⟩
  have hsame : valuesOf "user_id" namedMembers = valuesOf "user_id" clutteredMembers := by
    decide +kernel
  have hread : readAll namedPayload =
      .ok { user := ⟨7⟩, username := some "ann", authType := some (.ofName "saml") } :=
    Json.eq_ok_of_toOption (by decide +kernel)
  obtain ⟨huser, htold⟩ := readAll_ignores_metadata hnamed hcluttered hsame
  exact ⟨hnamed, hcluttered, hsame, hread, huser, ((htold _ hread).1 "ann").mp rfl⟩

end ClusterAccess.Claims
