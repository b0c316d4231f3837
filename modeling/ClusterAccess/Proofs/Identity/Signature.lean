import ClusterAccess.Proofs.Identity.Issue
import ClusterAccess.Proofs.Identity.Payload

/-!
# Tokens that are accepted

Nobody is let in without a token that is signed under the secret, with an algorithm that the
configuration allows.  The token's text is taken apart once, and what is signed is the text of the
parts that are read afterwards, so the claims are those of the text that has been signed.

The signature is compared as text.  Of the tokens with one text before the last dot at most one is
accepted, and the others are told to have a wrong signature (`authenticate_authentic`).
-/

namespace ClusterAccess

namespace Token

theorem Parts.ofText?_append (signed : List Char) {signature : List Char} (h : '.' ∉ signature) :
    Parts.ofText? (signed ++ '.' :: signature) =
      (splitLast signed).map fun parts => ⟨parts.1, parts.2, signature⟩ := by
  rw [ofText?, splitLast_append _ h, Option.bind_eq_bind, Option.bind_some]
  cases hsplit : splitLast signed <;> simp only [hsplit] <;> rfl

/-- What the parts of a token are that authenticates claims under a configuration. -/
structure Parts.Authentic (config : Config) (claims : Claims) (p : Parts) : Prop where
  dotless : '.' ∉ p.header ∧ '.' ∉ p.payload ∧ '.' ∉ p.signature
  /-- The header names an allowed algorithm; the signature is the text of that algorithm's code,
  under the secret, for header and payload with the dot between them. -/
  signed : ∃ source header hash, decodePart? p.header = some source ∧
    Header.ofSource? source = some header ∧ header.algorithm ∈ config.algorithms ∧
    header.algorithm.hashFunction? = some hash ∧
    p.signature = Text.Base64Url.encode
      (hash.hmac (Text.Utf8.encode config.secret.toList)
        (Text.Utf8.encode (p.header ++ '.' :: p.payload)))
  /-- The payload is an object, which says the claims and repeats no member that counts. -/
  read : ∃ source names, decodePart? p.payload = some source ∧ Json.names? source = some names ∧
    (∀ name ∈ ["user_id", "username", "auth_type", "exp"], names.count name ≤ 1) ∧
    Claims.readAll source = .ok claims

end Token

namespace Algorithm

theorem mem_of_isSharedSecret {a : Algorithm} (h : a.isSharedSecret = true) :
    a ∈ [Algorithm.hs256, .hs384, .hs512] := by
  cases a <;> first | decide | cases h

end Algorithm

namespace Authenticator

open Token (Header Parts Registered)

variable {auth : Authenticator} {now : UInt64} {text : String} {claims : Claims}

/-- What has been found out when a token is read. -/
theorem readToken_ok {registered : Registered}
    (h : auth.readToken text = .ok (claims, registered)) :
    ∃ p source header payload, Parts.ofText? text.toList = some p ∧
      Token.decodePart? p.header = some source ∧ Header.ofSource? source = some header ∧
      header.algorithm ∈ auth.algorithms ∧
      p.signature = Token.signature header.algorithm auth.secret p.signed ∧
      Token.decodePart? p.payload = some payload ∧ Claims.readAll payload = .ok claims ∧
      Registered.ofSource? payload = some registered := by
  unfold readToken at h
  cases hparts : Parts.ofText? text.toList with
  | none =>
    rw [hparts] at h
    cases h
  | some p =>
  cases hsource : Token.decodePart? p.header with
  | none =>
    simp only [hparts, hsource] at h
    cases h
  | some source =>
  cases hheader : Header.ofSource? source with
  | none =>
    simp only [hparts, hsource, hheader] at h
    cases h
  | some header =>
  simp only [hparts, hsource, hheader] at h
  split at h
  · cases h
  rename_i halgorithm
  split at h
  · cases h
  rename_i hsignature
  cases hpayload : Token.decodePart? p.payload with
  | none =>
    simp only [hpayload] at h
    cases h
  | some payload =>
  simp only [hpayload, Token.readPayload] at h
  split at h
  · cases h
  · cases h
  · rename_i claims' hclaims
    split at h
    · cases h
    · rename_i registered' hregistered
      cases h
      exact ⟨p, source, header, payload, rfl, hsource, hheader,
        Classical.not_not.mp halgorithm, Classical.not_not.mp hsignature, hpayload, hclaims,
        hregistered⟩

theorem readToken_of_signature_ne {p : Parts} {source : Json.Source} {header : Header}
    (hparts : Parts.ofText? text.toList = some p)
    (hsource : Token.decodePart? p.header = some source)
    (hheader : Header.ofSource? source = some header)
    (halgorithm : header.algorithm ∈ auth.algorithms)
    (hsignature : p.signature ≠ Token.signature header.algorithm auth.secret p.signed) :
    auth.readToken text = .error .invalidSignature := by
  simp only [readToken, hparts, hsource, hheader]
  rw [if_neg (not_not_intro halgorithm), if_pos hsignature]
  rfl

/-- An accepted token is authentic. -/
theorem authentic_of_verify (h : auth.verify now text = .ok claims) :
    ∃ p : Parts, text.toList = p.text ∧ p.Authentic auth.toConfig claims := by
  obtain ⟨registered, hread, -⟩ := read_of_verify h
  obtain ⟨p, source, header, payload, hparts, hsource, hheader, halgorithm, hsignature, hpayload,
    hclaims, hregistered⟩ := readToken_ok hread
  obtain ⟨htext, hdotless⟩ := Parts.text_of_ofText? hparts
  obtain ⟨hash, hhash⟩ := Option.isSome_iff_exists.mp (auth.sharedSecret _ halgorithm)
  obtain ⟨names, hnames, huser, hothers⟩ := Token.names_of_payload hclaims hregistered
  refine ⟨p, htext, ⟨Token.dot_not_mem_of_decodePart? hsource, hdotless⟩, ?_, ?_⟩
  · refine ⟨source, header, hash, hsource, hheader, halgorithm, hhash, ?_⟩
    rw [hsignature, Token.signature, Algorithm.sign, hhash]
    rfl
  · refine ⟨payload, names, hpayload, hnames, fun name hname => ?_, hclaims⟩
    rcases List.mem_cons.mp hname with rfl | hname
    · exact Nat.le_of_eq huser
    · exact hothers name hname

/-- A token that differs from an accepted one after its last dot has a wrong signature. -/
theorem verify_changed {signed s s' : List Char} (hs : '.' ∉ s) (hs' : '.' ∉ s') (hne : s' ≠ s)
    (h : auth.verify now (String.ofList (signed ++ '.' :: s)) = .ok claims) (t : UInt64) :
    auth.verify t (String.ofList (signed ++ '.' :: s')) =
      .error (.invalidCredential .invalidSignature) := by
  obtain ⟨registered, hread, -⟩ := read_of_verify h
  obtain ⟨p, source, header, payload, hparts, hsource, hheader, halgorithm, hsignature, -⟩ :=
    readToken_ok hread
  rw [String.toList_ofList, Parts.ofText?_append _ hs] at hparts
  obtain ⟨⟨front, back⟩, hsplit, rfl⟩ := Option.map_eq_some_iff.mp hparts
  have hparts' : Parts.ofText? (String.ofList (signed ++ '.' :: s')).toList =
      some ⟨front, back, s'⟩ := by
    rw [String.toList_ofList, Parts.ofText?_append _ hs', hsplit, Option.map_some]
  have hsignature' : s' ≠ Token.signature header.algorithm auth.secret (front ++ '.' :: back) :=
    fun hs' => hne (hs'.trans hsignature.symm)
  exact Judges.eq
    (.unread _ (readToken_of_signature_ne hparts' hsource hheader halgorithm hsignature'))

/-- **No principal without a signature, and no second signature.**  Let an authenticator be made of
a configuration.  If it takes a request for some principal's, then the configuration has a secret
and allows only algorithms that sign with it, and the token that the request carries is authentic
and says who the principal is.  Two tokens that are accepted and agree up to their last dots are the
same; and if an accepted token is changed after its last dot only, verifying it fails for its
signature, whatever the time. -/
theorem authenticate_authentic {config : Config} (hauth : ofConfig config = .ok auth) :
    (∀ now request principal, auth.authenticate now request = .ok principal →
      config.secret ≠ "" ∧ (∀ a ∈ config.algorithms, a ∈ [Algorithm.hs256, .hs384, .hs512]) ∧
        ∃ (token : String) (p : Parts) (claims : Claims), auth.token request = .ok token ∧
          token.toList = p.text ∧ p.Authentic config claims ∧ claims.principal = principal) ∧
      (∀ now now' signed s s' claims claims', '.' ∉ s → '.' ∉ s' →
        auth.verify now (String.ofList (signed ++ '.' :: s)) = .ok claims →
        auth.verify now' (String.ofList (signed ++ '.' :: s')) = .ok claims' → s = s') ∧
      ∀ now now' signed s s' claims, '.' ∉ s → '.' ∉ s' → s' ≠ s →
        auth.verify now (String.ofList (signed ++ '.' :: s)) = .ok claims →
        auth.verify now' (String.ofList (signed ++ '.' :: s')) =
          .error (.invalidCredential .invalidSignature) := by
  obtain rfl := toConfig_of_ofConfig hauth
  refine ⟨fun now request principal h => ?_,
    fun now now' signed s s' claims claims' hs hs' h h' => ?_,
    fun now now' signed s s' claims hs hs' hne h => verify_changed hs hs' hne h now'⟩
  · refine ⟨auth.secret_ne_empty, fun a ha => Algorithm.mem_of_isSharedSecret
      (auth.sharedSecret a ha), ?_⟩
    cases htoken : auth.token request with
    | error e =>
      rw [authenticate_of_no_token htoken] at h
      cases h
    | ok token =>
      rw [authenticate_of_token htoken] at h
      obtain ⟨claims, hverify, hprincipal⟩ := Verdict.map_eq_ok_iff.mp h
      obtain ⟨p, htext, hauthentic⟩ := authentic_of_verify hverify
      exact ⟨token, p, claims, rfl, htext, hauthentic, hprincipal⟩
  · refine Classical.byContradiction fun hne => ?_
    rw [verify_changed hs hs' (fun heq => hne heq.symm) h now'] at h'
    cases h'

/-- A token that is issued and carried by a request, and the same token with a letter put before its
signature. -/
theorem authenticate_authentic_issued :
    let config : Config := { secret := "s3cret", algorithms := [.hs512, .hs256] }
    let claims : Claims := { user := ⟨7⟩, username := some "ada" }
    ∃ auth, ofConfig config = .ok auth ∧
      ∃ p : Parts, auth.authenticate 1000 { authorization := some ("Bearer " ++ String.ofList p.text) } =
          .ok claims.principal ∧
        p.Authentic config claims ∧
        auth.verify 2000 (String.ofList (p.signed ++ '.' :: 'A' :: p.signature)) =
          .error (.invalidCredential .invalidSignature) := by
  intro config claims
  obtain ⟨auth, hauth⟩ : ∃ auth, ofConfig config = .ok auth := ⟨_, rfl⟩
  obtain ⟨hfirst, -, hchanged⟩ := authenticate_authentic hauth
  have hleeway : auth.leeway = 0 := congrArg Config.leeway (toConfig_of_ofConfig hauth)
  have hverify : auth.verify 1000 (auth.issue 1000 claims ⟨60, 0⟩) = .ok claims := by
    have hclock : auth.leeway ≤ 1000 := by rw [hleeway]; decide
    rw [verify_of_issue rfl (List.head_mem _) hclock, hleeway, if_neg (by decide)]
    rfl
  have htoken := token_of_header auth (auth.issue_ne_empty 1000 claims ⟨60, 0⟩) []
  have hprincipal : auth.authenticate 1000
      { authorization := some ("Bearer " ++ auth.issue 1000 claims ⟨60, 0⟩) } =
        .ok claims.principal := by
    rw [authenticate_of_token htoken, hverify]
    rfl
  obtain ⟨-, -, token, p, claims', hfound, htext, hauthentic, hsame⟩ := hfirst _ _ _ hprincipal
  obtain rfl : auth.issue 1000 claims ⟨60, 0⟩ = token := by
    rw [htoken] at hfound
    exact Except.ok.inj hfound
  have hissue : auth.issue 1000 claims ⟨60, 0⟩ = String.ofList p.text := by
    rw [← htext, String.ofList_toList]
  obtain rfl : claims' = claims := by
    cases claims'
    cases hsame
    rfl
  rw [hissue] at hprincipal hverify
  have hdot : '.' ∉ p.signature := hauthentic.dotless.2.2
  have hdot' : '.' ∉ 'A' :: p.signature := fun h => by
    rcases List.mem_cons.mp h with h | h
    · cases h
    · exact hdot h
  exact ⟨auth, hauth, p, hprincipal, hauthentic,
    hchanged 1000 2000 p.signed p.signature ('A' :: p.signature) claims hdot hdot'
      (List.cons_ne_self _ _) hverify⟩

end Authenticator

end ClusterAccess
