import ClusterAccess.Proofs.Identity.Issue
import Mathlib.Data.List.Basic

/-!
# One credential for a request

A request says in its header or in its query whose it is, and never in both: a header that is not
empty is all that is looked at, whether it is a token or not, and without one it is the first pair
of the query that has the right key (`Authenticator.authenticate_one_source`).  So nothing that is
put into a URL replaces what a header says, and no pair of the query replaces one before it.
-/

namespace ClusterAccess

/-- A request that has no header, or an empty one. -/
def Request.Headless (request : Request) : Prop := ∀ header ∈ request.authorization, header = ""

namespace Authenticator

/-! ## Tokens -/

/-- A token that has been found, which must not be empty. -/
def nonempty (token : String) : Except IdentityError String :=
  if token = "" then .error .missingCredential else .ok token

theorem nonempty_eq_ok_iff {found token : String} :
    nonempty found = .ok token ↔ found = token ∧ token ≠ "" := by
  unfold nonempty
  constructor
  · intro h
    split at h
    · cases h
    · rename_i hne
      cases h
      exact ⟨rfl, hne⟩
  · rintro ⟨rfl, hne⟩
    exact if_neg hne

theorem nonempty_eq_missing_iff {found : String} :
    nonempty found = .error .missingCredential ↔ found = "" := by
  unfold nonempty
  split
  · exact iff_of_true rfl ‹_›
  · exact iff_of_false nofun ‹_›

theorem nonempty_ne_malformed (found : String) :
    nonempty found ≠ .error .malformedCredential := by
  unfold nonempty
  split <;> nofun

/-! ## Headers -/

theorem eq_of_bearerToken {header token : String} (h : bearerToken header = .ok token) :
    header = "Bearer " ++ token := by
  unfold bearerToken at h
  split at h
  · rename_i rest hrest
    cases h
    have happend := List.isPrefixOf?_eq_some_iff_append_eq.mp hrest
    rw [← String.toList_inj, ← happend, String.toList_append]
    exact congrArg _ String.toList_ofList.symm
  · cases h

/-- A header is a token behind the word that announces it, or it is malformed. -/
theorem bearerToken_cases (header : String) :
    (∃ token, header = "Bearer " ++ token ∧ bearerToken header = .ok token) ∨
      (∀ token, header ≠ "Bearer " ++ token) ∧
        bearerToken header = .error .malformedCredential := by
  cases hbearer : bearerToken header with
  | ok token => exact .inl ⟨token, eq_of_bearerToken hbearer, rfl⟩
  | error e =>
    refine .inr ⟨?_, ?_⟩
    · rintro token rfl
      rw [bearerToken_append] at hbearer
      cases hbearer
    · unfold bearerToken at hbearer
      split at hbearer
      · cases hbearer
      · exact hbearer.symm

theorem token_of_header_ne_empty (auth : Authenticator) {header : String} (h : header ≠ "")
    (query : List (String × String)) :
    auth.token { authorization := some header, query } = (bearerToken header).bind nonempty := by
  have hfilter : (some header).filter (fun header => decide (header ≠ "")) = some header := by
    rw [Option.filter_some, if_pos (decide_eq_true h)]
  simp only [token, hfilter]
  rfl

/-! ## Queries -/

theorem find?_key (query : List (String × String)) (key : String) :
    (query.find? fun pair => decide (pair.1 = key)).map Prod.snd = query.lookup key := by
  induction query with
  | nil => rfl
  | cons pair query ih =>
    obtain ⟨name, value⟩ := pair
    rw [List.find?_cons, List.lookup_cons, ← ih]
    by_cases hname : name = key
    · simp [hname]
    · simp [hname, beq_false_of_ne fun h : key = name => hname h.symm]

theorem token_of_headless (auth : Authenticator) {request : Request} (h : request.Headless) :
    auth.token request = nonempty ((request.query.lookup auth.queryParam).getD "") := by
  have hfilter : request.authorization.filter (fun header => decide (header ≠ "")) = none := by
    rw [Option.filter_eq_none_iff]
    intro header hheader
    rw [decide_eq_true_eq, Classical.not_not]
    exact h header hheader
  simp only [token, hfilter]
  rw [← find?_key]
  cases request.query.find? fun pair => decide (pair.1 = auth.queryParam) <;> rfl

/-! ## Both -/

/-- Where the token of a request is looked for, and what is found there. -/
theorem token_cases (auth : Authenticator) (request : Request) :
    (request.Headless ∧
      auth.token request = nonempty ((request.query.lookup auth.queryParam).getD "")) ∨
    (∃ token, request.authorization = some ("Bearer " ++ token) ∧
      auth.token request = nonempty token) ∨
    (∃ header, request.authorization = some header ∧ header ≠ "" ∧
      (∀ token, header ≠ "Bearer " ++ token) ∧
      auth.token request = .error .malformedCredential) := by
  by_cases hhead : request.Headless
  · exact .inl ⟨hhead, token_of_headless auth hhead⟩
  · obtain ⟨authorization, query⟩ := request
    obtain ⟨header, hsome, hne⟩ : ∃ header, authorization = some header ∧ header ≠ "" := by
      simpa [Request.Headless] using hhead
    subst hsome
    have htoken := token_of_header_ne_empty auth hne query
    rcases bearerToken_cases header with ⟨token, rfl, hbearer⟩ | ⟨hother, hbearer⟩
    · rw [hbearer] at htoken
      exact .inr (.inl ⟨token, rfl, htoken⟩)
    · rw [hbearer] at htoken
      exact .inr (.inr ⟨header, rfl, hne, hother, htoken⟩)

theorem not_headless_of_bearer {request : Request} {token : String}
    (h : request.authorization = some ("Bearer " ++ token)) : ¬ request.Headless :=
  fun hhead => bearer_ne_empty token (hhead _ h)

/-! ## Principals -/

theorem authenticate_congr {auth : Authenticator} {request request' : Request}
    (h : auth.token request = auth.token request') (now : UInt64) :
    auth.authenticate now request = auth.authenticate now request' := by
  rw [authenticate, h, ← authenticate]

theorem authenticate_eq_ok_iff {auth : Authenticator} {now : UInt64} {request : Request}
    {principal : Principal} :
    auth.authenticate now request = .ok principal ↔
      ∃ token claims, auth.token request = .ok token ∧ auth.verify now token = .ok claims ∧
        principal = claims.principal := by
  constructor
  · intro h
    cases htoken : auth.token request with
    | error e =>
      rw [authenticate_of_no_token htoken] at h
      cases h
    | ok token =>
      rw [authenticate_of_token htoken] at h
      obtain ⟨claims, hverify, hprincipal⟩ := Verdict.map_eq_ok_iff.mp h
      exact ⟨token, claims, rfl, hverify, hprincipal.symm⟩
  · rintro ⟨token, claims, htoken, hverify, rfl⟩
    rw [authenticate_of_token htoken, hverify]
    rfl

/-- **A request has one credential.**  With a header that is not empty, what becomes of a request
does not depend on its query; without one, it depends on the value of the first pair that has the
right key, and on no other pair.  A principal is found just where a token is found whose claims it
has.  A header is the token behind the word that announces it, if there is one; nothing behind the
word counts as a missing credential, as do a missing and an empty header with no value in the query;
and all other headers are malformed, whatever the query. -/
theorem authenticate_one_source (auth : Authenticator) (now : UInt64) :
    (∀ header query query', header ≠ "" →
      auth.authenticate now { authorization := some header, query } =
        auth.authenticate now { authorization := some header, query := query' }) ∧
      (∀ request request' : Request, request.Headless → request'.Headless →
        request.query.lookup auth.queryParam = request'.query.lookup auth.queryParam →
        auth.authenticate now request = auth.authenticate now request') ∧
      (∀ request principal, auth.authenticate now request = .ok principal ↔
        ∃ token claims, auth.token request = .ok token ∧ auth.verify now token = .ok claims ∧
          principal = ⟨claims.user, claims.username, claims.authType⟩) ∧
      (∀ header query token, header ≠ "" →
        (auth.token { authorization := some header, query } = .ok token ↔
          header = "Bearer " ++ token ∧ token ≠ "")) ∧
      (∀ (request : Request) token, request.Headless →
        (auth.token request = .ok token ↔
          request.query.lookup auth.queryParam = some token ∧ token ≠ "")) ∧
      (∀ request, auth.token request = .error .missingCredential ↔
        request.authorization = some "Bearer " ∨
          request.Headless ∧ ∀ value ∈ request.query.lookup auth.queryParam, value = "") ∧
      (∀ request, auth.token request = .error .malformedCredential ↔
        ∃ header, request.authorization = some header ∧ header ≠ "" ∧
          ∀ token, header ≠ "Bearer " ++ token) := by
  refine ⟨fun header query query' hheader => ?_, fun request request' hhead hhead' hsame => ?_,
    fun request principal => ?_, fun header query token hheader => ?_,
    fun request token hhead => ?_, fun request => ?_, fun request => ?_⟩
  · refine authenticate_congr ?_ now
    rw [token_of_header_ne_empty auth hheader, token_of_header_ne_empty auth hheader]
  · refine authenticate_congr ?_ now
    rw [token_of_headless auth hhead, token_of_headless auth hhead', hsame]
  · exact authenticate_eq_ok_iff
  · rw [token_of_header_ne_empty auth hheader]
    rcases bearerToken_cases header with ⟨found, rfl, hbearer⟩ | ⟨hother, hbearer⟩
    · rw [hbearer, String.append_right_inj]
      exact nonempty_eq_ok_iff
    · rw [hbearer]
      exact iff_of_false nofun fun h => hother token h.1
  · rw [token_of_headless auth hhead, nonempty_eq_ok_iff]
    cases hlookup : request.query.lookup auth.queryParam with
    | none => exact iff_of_false (fun h => h.2 h.1.symm) nofun
    | some value => rw [Option.getD_some, Option.some.injEq]
  · rcases token_cases auth request with ⟨hhead, htoken⟩ | ⟨found, hheader, htoken⟩ |
      ⟨header, hheader, hne, hother, htoken⟩
    · have hbearer : request.authorization ≠ some ("Bearer " ++ "") := fun h =>
        not_headless_of_bearer h hhead
      rw [String.append_empty] at hbearer
      rw [htoken, nonempty_eq_missing_iff]
      cases request.query.lookup auth.queryParam <;> simp [hhead, hbearer]
    · have hempty : found = "" ↔ request.authorization = some "Bearer " := by
        rw [hheader, Option.some.injEq]
        exact (@String.append_right_inj "Bearer " found "").symm
      rw [htoken, nonempty_eq_missing_iff, hempty]
      exact ⟨.inl, fun h => h.resolve_right fun h => not_headless_of_bearer hheader h.1⟩
    · rw [htoken]
      refine iff_of_false nofun ?_
      rintro (hbearer | ⟨hhead, -⟩)
      · exact hother "" (Option.some.inj (hheader.symm.trans hbearer))
      · exact hne (hhead header hheader)
  · rcases token_cases auth request with ⟨hhead, htoken⟩ | ⟨found, hheader, htoken⟩ |
      ⟨header, hheader, hne, hother, htoken⟩
    · rw [htoken]
      refine iff_of_false (nonempty_ne_malformed _) ?_
      rintro ⟨header, hheader, hne, -⟩
      exact hne (hhead header hheader)
    · rw [htoken]
      refine iff_of_false (nonempty_ne_malformed _) ?_
      rintro ⟨header, hheader', -, hother⟩
      exact hother found (Option.some.inj (hheader'.symm.trans hheader))
    · rw [htoken]
      exact iff_of_true rfl ⟨header, hheader, hne, hother⟩

/-- A header in another case with a token in the query, the announcing word alone, and an empty
header with two tokens in the query. -/
theorem authenticate_one_source_repeated :
    let query := [("q", "x"), ("token", "abc"), ("token", "def")]
    ∃ auth, ofConfig { secret := "s3cret" } = .ok auth ∧
      auth.token { authorization := some "bearer abc", query } = .error .malformedCredential ∧
      auth.authenticate 1000 { authorization := some "bearer abc", query } =
        auth.authenticate 1000 { authorization := some "bearer abc" } ∧
      auth.token { authorization := some "Bearer ", query } = .error .missingCredential ∧
      auth.token { authorization := some "", query } = .ok "abc" ∧
      auth.authenticate 1000 { authorization := some "", query } =
        auth.authenticate 1000 { query := [("token", "abc")] } := by
  intro query
  obtain ⟨auth, hauth⟩ : ∃ auth, ofConfig { secret := "s3cret" } = .ok auth := ⟨_, rfl⟩
  have hparam : auth.queryParam = "token" :=
    congrArg Config.queryParam (toConfig_of_ofConfig hauth)
  obtain ⟨hheader, hquery, -, -, hfound, hmissing, hmalformed⟩ := authenticate_one_source auth 1000
  have hempty : Request.Headless { authorization := some "", query } := fun header h =>
    (Option.some.inj h).symm
  refine ⟨auth, hauth, ?_, hheader "bearer abc" query [] (by decide), ?_, ?_, ?_⟩
  · refine (hmalformed _).mpr ⟨"bearer abc", rfl, by decide, fun token htoken => ?_⟩
    have hchars := congrArg String.toList htoken
    rw [String.toList_append] at hchars
    cases hchars
  · exact (hmissing _).mpr (.inl rfl)
  · exact (hfound _ _ hempty).mpr ⟨by rw [hparam]; rfl, by decide⟩
  · exact hquery _ _ hempty nofun (by rw [hparam]; rfl)

end Authenticator

end ClusterAccess
