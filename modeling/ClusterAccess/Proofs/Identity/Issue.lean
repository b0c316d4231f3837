import ClusterAccess.Proofs.Identity.Parts
import ClusterAccess.Proofs.Identity.Validity
import ClusterAccess.Proofs.Json.Written

/-!
# Tokens that are issued

A token that is issued is accepted by whoever has the secret and allows its algorithm, and says what
it was issued for, until its time is over.  What is written is read back part by part: the text is
split at its two dots, the parts are decoded, the header names the algorithm, and the payload gives
the claims to the first reading and the end of the validity to the second.
-/

namespace ClusterAccess

open Json (Field Folds Reader Reads)

namespace Token

/-! ## Headers -/

theorem Header.ofSource?_write (header : Header) :
    Header.ofSource? (header.write.write.map .char) = some header := by
  have htype : Reads (Reader.namedField (Draft.fields (ε := Empty) 126) "typ" {})
      (Json.string "JWT").write { others := ["typ"] } := fun rest stops =>
    Reader.bind_of_ok (Reader.reads_optional_string 126 "JWT" rest stops)
  have halgorithm : Reads (Reader.namedField (Draft.fields (ε := Empty) 126) "alg"
      { others := ["typ"] }) (Json.string header.algorithm.name).write
        { algorithm := some header.algorithm, others := ["typ"] } := fun rest stops =>
    Reader.bind_of_ok (Reader.reads_tag header.algorithm.ofName?_name 126 rest stops)
  have hrecord : Reader.record (Draft.fields (ε := Empty)) {} Reader.greatestNesting
      (header.write.write.map .char) =
        .ok { algorithm := some header.algorithm, others := ["typ"] } [] := by
    rw [← List.append_nil (List.map _ _)]
    exact Reader.record_write 126 (.cons htype (.one halgorithm))
  have hread : (read Reader.greatestNesting : Reader Empty Header) (header.write.write.map .char) =
      .ok header [] := by
    have hlook : Reader.look (ε := Empty) (header.write.write.map .char) =
        .ok (some '\x7b') (header.write.write.map .char) := by
      rw [write, Json.write]
      rfl
    rw [read, Reader.bind_of_ok hlook]
    exact Reader.bind_of_ok hrecord
  rw [ofSource?, Reader.readAll_of_ok hread]

end Token

/-! ## Payloads -/

namespace Claims

/-- The claims as they are read: a way of signing in that is known is recognised by its name. -/
def normal (claims : Claims) : Claims :=
  { claims with authType := claims.authType.map fun auth => .ofName auth.name }

theorem reads_subject (nesting : Nat) (user : UserId) :
    Reads (subject nesting) (Json.ofWord user.value).write user := by
  intro rest stops
  rw [subject, Reader.bind_of_ok (Reader.reads_value_word nesting user.value rest stops)]
  rfl

theorem reads_text (nesting : Nat) (next : Option String → Draft) (text : String) :
    Reads (do return next (textOf? (← Reader.value nesting)) : Reader SubjectError Draft)
      (Json.string text).write (next (some text)) := by
  intro rest stops
  rw [Reader.bind_of_ok (Reader.reads_value_string nesting text rest stops)]
  rfl

/-- What the first reading builds of the claims that are written. -/
theorem folds_members (claims : Claims) (nesting : Nat) :
    Folds (Reader.namedField (Draft.fields nesting)) {} claims.members
      ⟨some claims.user, claims.username.map some, claims.normal.authType.map some⟩ := by
  have huser : Reads (Reader.namedField (Draft.fields nesting) "user_id" {})
      (Json.ofWord claims.user.value).write { user := some claims.user } := fun rest stops =>
    Reader.bind_of_ok (reads_subject nesting claims.user rest stops)
  have hname : Folds (Reader.namedField (Draft.fields nesting)) { user := some claims.user }
      (claims.username.map fun name => ("username", Json.Wire.write name)).toList
      ⟨some claims.user, claims.username.map some, none⟩ := by
    cases claims.username with
    | none => exact .nil _
    | some name =>
      exact .one (reads_text nesting
        (fun text => { user := some claims.user, username := some text }) name)
  have hauth : Folds (Reader.namedField (Draft.fields nesting))
      ⟨some claims.user, claims.username.map some, none⟩
      (claims.authType.map fun auth => ("auth_type", Json.Wire.write auth)).toList
      ⟨some claims.user, claims.username.map some, claims.normal.authType.map some⟩ := by
    rw [normal]
    cases claims.authType with
    | none => exact .nil _
    | some auth =>
      exact .one (reads_text nesting (fun text =>
        ⟨some claims.user, claims.username.map some, some (text.map .ofName)⟩) auth.name)
  exact .cons huser (.append hname hauth)

/-- What the first reading builds of a payload: the times are passed over. -/
theorem folds_payload (claims : Claims) (issued expires : UInt64) (nesting : Nat) :
    Folds (Reader.namedField (Draft.fields nesting)) {}
      (claims.members ++ [("iat", .ofWord issued), ("exp", .ofWord expires)])
      ⟨some claims.user, claims.username.map some, claims.normal.authType.map some⟩ := by
  have hskip (d : Draft) (name : String) (word : UInt64)
      (hname : (Draft.fields nesting).find? (fun field => decide (field.name = name)) = none) :
      Reads (Reader.namedField (Draft.fields nesting) name d) (Json.ofWord word).write d := by
    intro rest stops
    rw [Reader.namedField, hname]
    exact Reader.bind_of_ok (Reader.reads_skip_word word rest stops)
  exact .append (claims.folds_members nesting)
    (.cons (hskip _ _ _ rfl) (.one (hskip _ _ _ rfl)))

/-- An object is read as the claims that its members build. -/
theorem readAll_of_folds {ms : List (String × Json)} {claims : Claims}
    (h : Folds (Reader.namedField (Draft.fields 126)) {} ms
      ⟨some claims.user, claims.username.map some, claims.authType.map some⟩) :
    readAll ((Json.object ms).write.map .char) = .ok claims := by
  have hgetD {α : Type} (found : Option α) : (found.map some).getD none = found := by
    cases found <;> rfl
  have hrecord : Reader.record Draft.fields {} Reader.greatestNesting
      ((Json.object ms).write.map .char) =
        .ok ⟨some claims.user, claims.username.map some, claims.authType.map some⟩ [] := by
    rw [← List.append_nil (List.map _ _)]
    exact Reader.record_write 126 h
  refine Reader.readAll_of_ok ?_
  rw [read, Reader.bind_of_ok hrecord]
  change EStateM.Result.ok (Claims.mk claims.user ((claims.username.map some).getD none)
    ((claims.authType.map some).getD none)) [] = _
  rw [hgetD, hgetD]

/-- **The claims of a payload are read back.** -/
theorem readAll_payload (claims : Claims) (issued expires : UInt64) :
    readAll ((Token.payload claims issued expires).write.map .char) = .ok claims.normal :=
  readAll_of_folds (claims.folds_payload issued expires 126)

end Claims

namespace Token.Registered

theorem reads_seconds {ε : Type} (word : UInt64) :
    Reads (seconds (ε := ε)) (Json.ofWord word).write (some word) := by
  intro rest stops
  have hnumber := fun onArray onObject =>
    Reader.reads_scalarOr_word (ε := ε) onArray onObject word rest stops
  have hattempt : attempt (Reader.scalarOr
      (do Reader.expect '['; Reader.closedBy ']' Reader.unreadable)
      (do Reader.expect '\x7b'; Reader.closedBy '\x7d' Reader.unreadable) : Reader ε Json)
      ((Json.ofWord word).write.map .char ++ rest) = .ok (some (.ofWord word)) rest := by
    simp only [attempt, hnumber]
  rw [seconds, Reader.bind_of_ok hattempt]
  rfl

/-- **The end of a payload's validity is read back** by the second reading. -/
theorem ofSource?_payload (claims : Claims) (issued expires : UInt64) :
    ofSource? ((Token.payload claims issued expires).write.map .char) =
      some { expires := some expires } := by
  have hword (name : String) (word : UInt64) (hname : (Draft.fields (ε := Empty) 126).find?
      (fun field => decide (field.name = name)) = none) :
      Folds (Reader.namedField (Draft.fields (ε := Empty) 126)) {} [(name, .ofWord word)] {} := by
    refine .one fun rest stops => ?_
    rw [Reader.namedField, hname]
    exact Reader.bind_of_ok (Reader.reads_skip_word word rest stops)
  have htext (name text : String) (hname : (Draft.fields (ε := Empty) 126).find?
      (fun field => decide (field.name = name)) = none) :
      Folds (Reader.namedField (Draft.fields (ε := Empty) 126)) {} [(name, .string text)] {} := by
    refine .one fun rest stops => ?_
    rw [Reader.namedField, hname]
    exact Reader.bind_of_ok (Reader.reads_skip_string text rest stops)
  have hexpires : Reads (Reader.namedField (Draft.fields (ε := Empty) 126) "exp" {})
      (Json.ofWord expires).write { expires := some expires, names := ["exp"] } :=
    fun rest stops => Reader.bind_of_ok (reads_seconds expires rest stops)
  have hname : Folds (Reader.namedField (Draft.fields (ε := Empty) 126)) {}
      (claims.username.map fun name => ("username", Json.Wire.write name)).toList {} := by
    cases claims.username with
    | none => exact .nil _
    | some name => exact htext "username" name rfl
  have hauth : Folds (Reader.namedField (Draft.fields (ε := Empty) 126)) {}
      (claims.authType.map fun auth => ("auth_type", Json.Wire.write auth)).toList {} := by
    cases claims.authType with
    | none => exact .nil _
    | some auth => exact htext "auth_type" auth.name rfl
  have hmembers : Folds (Reader.namedField (Draft.fields (ε := Empty) 126)) {} claims.members {} :=
    (hword "user_id" claims.user.value rfl).append (hname.append hauth)
  have hfolds := hmembers.append ((hword "iat" issued rfl).append (.one hexpires))
  have hrecord : Reader.record (Draft.fields (ε := Empty)) {} Reader.greatestNesting
      ((Token.payload claims issued expires).write.map .char) =
        .ok { expires := some expires, names := ["exp"] } [] := by
    rw [← List.append_nil (List.map _ _)]
    exact Reader.record_write 126 hfolds
  have hlook : Reader.look (ε := Empty) ((Token.payload claims issued expires).write.map .char) =
      .ok (some '\x7b') ((Token.payload claims issued expires).write.map .char) := by
    rw [Token.payload, Json.write]
    rfl
  have hread : (read Reader.greatestNesting : Reader Empty Registered)
      ((Token.payload claims issued expires).write.map .char) =
        .ok { expires := some expires } [] := by
    rw [read, Reader.bind_of_ok hlook]
    exact Reader.bind_of_ok hrecord
  rw [ofSource?, Reader.readAll_of_ok hread]

end Token.Registered

/-! ## Tokens -/

namespace Authenticator

/-- Nothing is changed in a configuration that is accepted. -/
theorem toConfig_of_ofConfig {config : Config} {auth : Authenticator}
    (h : ofConfig config = .ok auth) : auth.toConfig = config := by
  unfold ofConfig at h
  split at h
  · cases h
  split at h
  · cases h
  split at h
  · cases h
  · cases h
    rfl

/-- The parts of a token with a payload, as an authenticator signs them. -/
def signedParts (issuer : Authenticator) (payload : List Char) : Token.Parts :=
  let header := Token.encodePart issuer.header.write.write
  let payload := Token.encodePart payload
  { header, payload,
    signature := Token.signature issuer.signingAlgorithm issuer.secret (header ++ '.' :: payload) }

theorem issue_eq (issuer : Authenticator) (now : UInt64) (claims : Claims) (validity : Span) :
    issuer.issue now claims validity = String.ofList
      (issuer.signedParts (Token.payload claims now (expiry now validity)).write).text := rfl

theorem ofText?_signedParts (issuer : Authenticator) (payload : List Char) :
    Token.Parts.ofText? (issuer.signedParts payload).text = some (issuer.signedParts payload) :=
  Token.Parts.ofText?_text (Text.Base64Url.dot_not_mem_encode _)
    (Text.Base64Url.dot_not_mem_encode _)

section Read

variable {issuer verifier : Authenticator} (hsecret : verifier.secret = issuer.secret)
  (hallowed : issuer.signingAlgorithm ∈ verifier.algorithms)

include hsecret hallowed

/-- Of a token that is signed as it should be, only the payload is left to look at. -/
theorem readToken_signedParts (payload : List Char) :
    verifier.readToken (String.ofList (issuer.signedParts payload).text) =
      Token.readPayload (payload.map .char) := by
  have hheader : Token.decodePart? (issuer.signedParts payload).header =
      some (issuer.header.write.write.map .char) := Token.decodePart?_encodePart _
  have hpayload : Token.decodePart? (issuer.signedParts payload).payload =
      some (payload.map .char) := Token.decodePart?_encodePart _
  have hsignature : (issuer.signedParts payload).signature =
      Token.signature issuer.header.algorithm verifier.secret
        (issuer.signedParts payload).signed := by
    rw [hsecret]
    rfl
  have halgorithm : ¬ issuer.header.algorithm ∉ verifier.algorithms := not_not_intro hallowed
  simp only [readToken, String.toList_ofList, ofText?_signedParts, hheader,
    Token.Header.ofSource?_write]
  rw [if_neg halgorithm, if_neg (not_not_intro hsignature)]
  simp only [hpayload]

theorem readToken_issue (now : UInt64) (claims : Claims) (validity : Span) :
    verifier.readToken (issuer.issue now claims validity) =
      .ok (claims.normal, { expires := some (expiry now validity) }) := by
  rw [issue_eq, readToken_signedParts hsecret hallowed]
  simp only [Token.readPayload, Claims.readAll_payload, Token.Registered.ofSource?_payload]

/-- An issued token is judged by its length of time, by a clock that the leeway does not exceed. -/
theorem verify_of_issue {t : UInt64} (hleeway : verifier.leeway ≤ t) (now : UInt64)
    (claims : Claims) (validity : Span) :
    verifier.verify t (issuer.issue now claims validity) =
      if expiry now validity < t - verifier.leeway then .error (.invalidCredential .expired)
      else .ok claims.normal := by
  have hread := readToken_issue hsecret hallowed now claims validity
  split
  · rename_i hended
    exact Judges.eq (.ended _ _ _ hread rfl hleeway hended)
  · rename_i hlasts
    exact Judges.eq (.lasts _ _ _ hread rfl hleeway (UInt64.not_lt.mp hlasts))

end Read

/-! ## Requests that carry a token -/

theorem isPrefixOf?_append {α : Type} [BEq α] [ReflBEq α] (before after : List α) :
    before.isPrefixOf? (before ++ after) = some after := by
  induction before with
  | nil => cases after <;> rfl
  | cons a before ih => exact (if_pos (beq_self_eq_true a)).trans ih

theorem bearerToken_append (token : String) : bearerToken ("Bearer " ++ token) = .ok token := by
  rw [bearerToken, String.toList_append, isPrefixOf?_append]
  exact congrArg Except.ok String.ofList_toList

theorem bearer_ne_empty (token : String) : "Bearer " ++ token ≠ "" := by
  intro h
  have hchars := congrArg String.toList h
  rw [String.toList_append] at hchars
  cases hchars

theorem authenticate_of_token {auth : Authenticator} {request : Request} {token : String}
    (h : auth.token request = .ok token) (now : UInt64) :
    auth.authenticate now request = (auth.verify now token).map Claims.principal := by
  rw [authenticate, h]
  change (auth.verify now token).bind (fun claims => .ok claims.principal) = _
  cases auth.verify now token <;> rfl

theorem authenticate_of_no_token {auth : Authenticator} {request : Request} {e : IdentityError}
    (h : auth.token request = .error e) (now : UInt64) :
    auth.authenticate now request = .error e := by
  rw [authenticate, h]
  rfl

section Token

variable (auth : Authenticator) {token : String} (htoken : token ≠ "")

include htoken

theorem token_of_header (query : List (String × String)) :
    auth.token { authorization := some ("Bearer " ++ token), query } = .ok token := by
  have hfilter : (some ("Bearer " ++ token)).filter (fun header => decide (header ≠ "")) =
      some ("Bearer " ++ token) := by
    rw [Option.filter_some, if_pos (decide_eq_true (bearer_ne_empty token))]
  simp only [Authenticator.token, hfilter, bearerToken_append]
  exact if_neg htoken

theorem token_of_query {before : List (String × String)}
    (hbefore : ∀ pair ∈ before, pair.1 ≠ auth.queryParam) (after : List (String × String)) :
    auth.token { query := before ++ (auth.queryParam, token) :: after } = .ok token := by
  have hfind : (before ++ (auth.queryParam, token) :: after).find?
      (fun pair => decide (pair.1 = auth.queryParam)) = some (auth.queryParam, token) := by
    have hnone : before.find? (fun pair => decide (pair.1 = auth.queryParam)) = none :=
      List.find?_eq_none.mpr fun pair hpair => by simpa using hbefore pair hpair
    rw [List.find?_append, hnone, Option.none_or]
    exact List.find?_cons_of_pos (decide_eq_true rfl)
  simp only [Authenticator.token, Option.filter_none, hfind]
  exact if_neg htoken

end Token

/-- Whether a token that is issued now for a length of time is valid at a time, with a leeway. -/
theorem expiry_lt_iff {t leeway : UInt64} (hleeway : leeway ≤ t) (now : UInt64) (validity : Span) :
    expiry now validity < t - leeway ↔
      ¬ t.toNat - leeway.toNat ≤
        min (now.toNat + validity.seconds.toNat + validity.nanoseconds.toNat / 10 ^ 9)
          (2 ^ 64 - 1) := by
  have hexpiry : (expiry now validity).toNat =
      min (now.toNat + validity.seconds.toNat + validity.nanoseconds.toNat / 10 ^ 9)
        (2 ^ 64 - 1) :=
    UInt64.toNat_ofNat_of_lt' (Nat.lt_of_le_of_lt (Nat.min_le_right _ _) (by decide))
  rw [UInt64.lt_iff_toNat_lt, UInt64.toNat_sub_of_le _ _ hleeway, hexpiry, Nat.not_le]

theorem issue_ne_empty (issuer : Authenticator) (now : UInt64) (claims : Claims)
    (validity : Span) : issuer.issue now claims validity ≠ "" := by
  intro hempty
  have hparts := issuer.ofText?_signedParts (Token.payload claims now (expiry now validity)).write
  rw [← String.toList_ofList (l := Token.Parts.text _), ← issue_eq, hempty] at hparts
  cases hparts

/-- **A token that is issued is accepted as long as it is valid.**  Let two authenticators be made
of configurations with one secret, of which the second one allows the algorithm with which the first
one signs.  Verifying a token that the first one has issued gives the second one the claims back, a
known way of signing in being recognised, as long as the token's time is not over, and says that it
is over from then on.  So does authenticating a request whose header carries the token, or which has
no header and a query of whose pairs with the right key the first one carries it. -/
theorem verify_issue {config config' : Config} {issuer verifier : Authenticator}
    (hissuer : ofConfig config = .ok issuer) (hverifier : ofConfig config' = .ok verifier)
    (hsecret : config'.secret = config.secret) {algorithm : Algorithm}
    (hfirst : config.algorithms.head? = some algorithm)
    (hallowed : algorithm ∈ config'.algorithms) (now t : UInt64) (hleeway : config'.leeway ≤ t)
    (claims : Claims) (validity : Span) :
    let token := issuer.issue now claims validity
    let valid := t.toNat - config'.leeway.toNat ≤
      min (now.toNat + validity.seconds.toNat + validity.nanoseconds.toNat / 10 ^ 9) (2 ^ 64 - 1)
    let expired := IdentityError.invalidCredential .expired
    let principal : Principal :=
      ⟨claims.user, claims.username, claims.authType.map fun auth => .ofName auth.name⟩
    verifier.verify t token = (if valid then .ok claims.normal else .error expired) ∧
      (∀ query, verifier.authenticate t { authorization := some ("Bearer " ++ token), query } =
        if valid then .ok principal else .error expired) ∧
      ∀ before after, (∀ pair ∈ before, pair.1 ≠ config'.queryParam) →
        verifier.authenticate t { query := before ++ (config'.queryParam, token) :: after } =
          if valid then .ok principal else .error expired := by
  intro token valid expired principal
  obtain rfl := toConfig_of_ofConfig hissuer
  obtain rfl := toConfig_of_ofConfig hverifier
  have hsigning : issuer.signingAlgorithm = algorithm := by
    rw [List.head?_eq_some_head issuer.algorithms_ne_nil] at hfirst
    exact Option.some.inj hfirst
  have hverify : verifier.verify t token =
      if valid then .ok claims.normal else .error expired := by
    rw [verify_of_issue hsecret (hsigning ▸ hallowed) hleeway]
    by_cases hvalid : valid
    · rw [if_pos hvalid, if_neg fun hlt => (expiry_lt_iff hleeway now validity).mp hlt hvalid]
    · rw [if_neg hvalid, if_pos ((expiry_lt_iff hleeway now validity).mpr hvalid)]
  have hprincipal : (verifier.verify t token).map Claims.principal =
      if valid then .ok principal else .error expired := by
    rw [hverify]
    by_cases hvalid : valid
    · rw [if_pos hvalid, if_pos hvalid]
      rfl
    · rw [if_neg hvalid, if_neg hvalid]
      rfl
  have htoken : token ≠ "" := issuer.issue_ne_empty now claims validity
  refine ⟨hverify, fun query => ?_, fun before after hbefore => ?_⟩
  · rw [authenticate_of_token (token_of_header verifier htoken query)]
    exact hprincipal
  · rw [authenticate_of_token (token_of_query verifier htoken hbefore after)]
    exact hprincipal

/-- A token of a minute, whose name needs an escape and whose way of signing in is known under its
name: taken in its last second, by two authenticators, and refused a second later. -/
theorem verify_issue_minute :
    let config : Config := { secret := "s3cret", algorithms := [.hs512, .hs256] }
    let config' : Config := { secret := "s3cret", algorithms := [.hs384, .hs512], leeway := 5 }
    let claims : Claims := ⟨⟨7⟩, some "ada\n", some (.other "ldap")⟩
    ∃ issuer verifier, ofConfig config = .ok issuer ∧ ofConfig config' = .ok verifier ∧
      let token := issuer.issue 1000 claims ⟨60, 999999999⟩
      verifier.verify 1065 token = .ok ⟨⟨7⟩, some "ada\n", some .ldap⟩ ∧
        verifier.verify 1066 token = .error (.invalidCredential .expired) ∧
        verifier.authenticate 1065 { query := [("q", "x"), ("token", token), ("token", "y")] } =
          .ok ⟨⟨7⟩, some "ada\n", some .ldap⟩ := by
  intro config config' claims
  obtain ⟨issuer, hissuer⟩ : ∃ issuer, ofConfig config = .ok issuer := ⟨_, rfl⟩
  obtain ⟨verifier, hverifier⟩ : ∃ verifier, ofConfig config' = .ok verifier := ⟨_, rfl⟩
  have hfirst : config.algorithms.head? = some .hs512 := rfl
  have hissue (t : UInt64) (hleeway : config'.leeway ≤ t) := verify_issue hissuer hverifier rfl
    hfirst (by decide) 1000 t hleeway claims ⟨60, 999999999⟩
  obtain ⟨hlast, -, hquery⟩ := hissue 1065 (by decide)
  obtain ⟨hover, -, -⟩ := hissue 1066 (by decide)
  refine ⟨issuer, verifier, hissuer, hverifier, hlast.trans (if_pos (by decide)),
    hover.trans (if_neg (by decide)), ?_⟩
  exact (hquery [("q", "x")] [("token", "y")] (by decide)).trans (if_pos (by decide))

end Authenticator

end ClusterAccess
