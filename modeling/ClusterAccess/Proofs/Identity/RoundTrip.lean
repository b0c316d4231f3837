import ClusterAccess.Proofs.Directory.Wire
import ClusterAccess.Proofs.Identity.Issue

/-!
# Claims on the wire and back

Claims are read from texts that say more than their own do: a number may stand for the user in many
forms, an informative claim of the wrong kind counts as absent, and members that are not known are
passed over.  Whatever has been read, its own text is read as the same claims again.  With the
records of the directory this makes every form of the wire a faithful one (`wire_roundTrips`).
-/

namespace ClusterAccess

open Json (Field Reader Wire RoundTrips)

namespace Claims

/-- The text of claims. -/
def render (claims : Claims) : String := claims.write.render

/-- The claims that a text is. -/
def parse? (text : String) : Option Claims := (readAll (Text.pieces text)).toOption

/-! ## Normal forms -/

/-- Claims whose way of signing in, if they have one, is in normal form. -/
def IsNormal (claims : Claims) : Prop := ∀ auth ∈ claims.authType, auth.IsNormal

theorem normal_of_isNormal {claims : Claims} (h : claims.IsNormal) : claims.normal = claims := by
  obtain ⟨user, username, authType⟩ := claims
  cases authType with
  | none => rfl
  | some auth =>
    have hname := AuthType.isNormal_iff.mp (h auth rfl)
    exact congrArg (fun auth => Claims.mk user username (some auth)) hname

/-- A way of signing in that has been read is in normal form. -/
def Draft.Normal (d : Draft) : Prop := ∀ found ∈ d.authType, ∀ auth ∈ found, auth.IsNormal

theorem Draft.normal_of_field {nesting : Nat} {field : Field SubjectError Draft}
    (hfield : field ∈ Draft.fields nesting) {d d' : Draft} {s r : Json.Source}
    (h : field.read d s = .ok d' r) (hd : d.Normal) : d'.Normal := by
  simp only [fields, List.mem_cons, List.not_mem_nil, or_false] at hfield
  rcases hfield with rfl | rfl | rfl
  case inr.inr =>
    obtain ⟨value, _, -, h⟩ := Reader.bind_ok h
    cases h
    rintro _ ⟨⟩ auth hauth
    obtain ⟨name, -, rfl⟩ := Option.map_eq_some_iff.mp hauth
    exact AuthType.isNormal_ofName name
  all_goals
    obtain ⟨_, _, -, h⟩ := Reader.bind_ok h
    cases h
    exact hd

/-- **Claims that are read are in normal form**, also where the way of signing in is of the wrong
kind or left out. -/
theorem isNormal_of_parse? {text : String} {claims : Claims} (h : parse? text = some claims) :
    claims.IsNormal := by
  obtain ⟨r, hread, -⟩ := Reader.readAll_ok (Json.eq_ok_of_toOption h)
  obtain ⟨d, _, hrecord, h⟩ := Reader.bind_ok hread
  have hd : d.Normal := Reader.record_keeps (P := Draft.Normal)
    (fun _ _ hfield _ _ _ _ => Draft.normal_of_field hfield) hrecord nofun
  obtain ⟨_, _, -, h⟩ := Reader.bind_ok h
  cases h
  intro auth hauth
  cases hfound : d.authType with
  | none => simp only [hfound, Option.getD_none, Option.mem_def, reduceCtorEq] at hauth
  | some found =>
    simp only [hfound, Option.getD_some] at hauth
    exact hd found hfound auth hauth

/-! ## Round trips -/

theorem parse?_render (claims : Claims) : parse? claims.render = some claims.normal := by
  have hread : readAll (claims.write.write.map .char) = .ok claims.normal :=
    readAll_of_folds (claims.folds_members 126)
  rw [parse?, Text.pieces, render, Json.render, String.toList_ofList]
  exact congrArg Except.toOption hread

theorem roundTrips : RoundTrips parse? render IsNormal :=
  .intro (fun claims h => by rw [parse?_render, normal_of_isNormal h])
    fun _ _ => isNormal_of_parse?

end Claims

/-- **Reading undoes writing on the whole wire.**  Ids, tags, users, groups, memberships, subjects,
permissions and claims are read back from their own texts, if a known way of signing in is not kept
under its name like an unknown one; and from whatever text such a value is read, in whatever form,
it is a value of this kind: its own text is read as the same value, and is written again for it. -/
theorem wire_roundTrips :
    (RoundTrips (Wire.parse? (α := UserId)) Wire.render fun _ => True) ∧
    (RoundTrips (Wire.parse? (α := GroupId)) Wire.render fun _ => True) ∧
    (RoundTrips (Wire.parse? (α := ClusterId)) Wire.render fun _ => True) ∧
    (RoundTrips (Wire.parse? (α := PermissionId)) Wire.render fun _ => True) ∧
    (RoundTrips (Wire.parse? (α := Role)) Wire.render fun _ => True) ∧
    (RoundTrips (Wire.parse? (α := Status)) Wire.render fun _ => True) ∧
    RoundTrips Wire.parse? Wire.render AuthType.IsNormal ∧
    (RoundTrips Wire.parse? Wire.render fun user : User => user.authType.IsNormal) ∧
    (RoundTrips (Wire.parse? (α := UserGroup)) Wire.render fun _ => True) ∧
    (RoundTrips (Wire.parse? (α := Membership)) Wire.render fun _ => True) ∧
    (RoundTrips (Wire.parse? (α := Subject)) Wire.render fun _ => True) ∧
    (RoundTrips (Wire.parse? (α := Permission)) Wire.render fun _ => True) ∧
    RoundTrips Claims.parse? Claims.render Claims.IsNormal := by
  refine ⟨?_, ?_, ?_, ?_, ?_, ?_, ?_, ?_, ?_, ?_, ?_, ?_, Claims.roundTrips⟩
  · exact Wire.roundTrips_of_reads (reads_userId _)
  · exact Wire.roundTrips_of_reads (reads_groupId _)
  · exact Wire.roundTrips_of_reads (reads_clusterId _)
  · exact Wire.roundTrips_of_reads (reads_permissionId _)
  · exact Wire.roundTrips_of_reads (reads_role _)
  · exact Wire.roundTrips_of_reads (reads_status _)
  · exact Wire.roundTrips (fun _ => reads_authType _) fun _ _ _ => isNormal_of_read _
  · exact Wire.roundTrips (fun _ => reads_user 126) fun _ _ _ => User.authType_normal_of_read
  · exact Wire.roundTrips_of_reads (reads_userGroup 125)
  · exact Wire.roundTrips_of_reads (reads_membership 126)
  · exact Wire.roundTrips_of_reads (reads_subject 126)
  · exact Wire.roundTrips_of_reads (reads_permission 125)

/-- A user who signs in by a way that is not known, and claims by one that is: read back from their
own texts, and the claims from an array too.  The known way under its name, like one that is not
known, is not in normal form, and is read as the known way. -/
theorem wire_roundTrips_unknown :
    let user : User := ⟨⟨7⟩, "ada\n", .admin, .disabled, .other "saml"⟩
    let claims : Claims := ⟨⟨7⟩, some "ada", some .ldap⟩
    (AuthType.other "saml").IsNormal ∧
      Wire.parse? (Wire.render (AuthType.other "saml")) = some (AuthType.other "saml") ∧
      ¬ (AuthType.other "ldap").IsNormal ∧
      Wire.parse? (Wire.render (AuthType.other "ldap")) = some AuthType.ldap ∧
      user.authType.IsNormal ∧ Wire.parse? (Wire.render user) = some user ∧
      Claims.parse? "[7,\"ada\",\"ldap\"]" = some claims ∧ claims.IsNormal ∧
      Claims.parse? claims.render = some claims := by
  intro user claims
  obtain ⟨-, -, -, -, -, -, hauth, huser, -, -, -, -, hclaims⟩ := wire_roundTrips
  have hnormal : (AuthType.other "saml").IsNormal := by decide
  have hread : Claims.parse? "[7,\"ada\",\"ldap\"]" = some claims := by decide +kernel
  obtain ⟨hclaimsNormal, hback, -⟩ := hclaims.2 _ _ hread
  exact ⟨hnormal, hauth.1 _ hnormal, by decide, hauth.1 .ldap (by decide), hnormal,
    huser.1 user hnormal, hread, hclaimsNormal, hback⟩

/-- A group that is read from an array is written as an object, its members in order and once. -/
example : (Wire.parse? (α := UserGroup) "[1, \"ops\", \"\", [3, 2, 3]]").map Wire.render =
    some "\x7b\"id\":1,\"name\":\"ops\",\"description\":\"\",\"member_ids\":[2,3]\x7d" := by
  decide +kernel

/-- A subject whose id comes before its kind. -/
example : (Wire.parse? (α := Subject) "\x7b\"id\":5,\"of\":[],\"kind\":\"group\"\x7d").map
    Wire.render = some "\x7b\"kind\":\"group\",\"id\":5\x7d" := by
  decide +kernel

end ClusterAccess
