import ClusterAccess.Store.Dialogue
/-!
# Resolution of access

Whether a user may access a cluster is found out anew each time, by three questions of which the
first with an answer decides: is there a permission that names the user, is there one that names a
group of the user's, and which role does the user have?

A store that fails cannot widen access.  At the first two questions its failure counts as there
being no permission, at the last one as a refusal.  Each failure is noted.
-/

namespace ClusterAccess.Access

/-- Takes a store's answer; a failure is noted and gives nothing. -/
def absorb {α : Type} (step : ResolutionStep) (user : UserId) (cluster : ClusterId) :
    Except StoreError α → Conversation (Option α)
  | .ok answer => return some answer
  | .error e => do
    Dialogue.log (.failureAbsorbed step user cluster e)
    return none

/-- The decision of a permission that names the user. -/
def directGrant (user : UserId) (cluster : ClusterId) : Conversation (Option Decision) := do
  let answer ← Dialogue.request (Call.query (.userGrant user cluster))
  let found ← absorb .directGrant user cluster answer
  return found.join.map fun permission => .directGrant permission.id

/-- The decision of a permission that was found for a group of the user's.  A permission that
names a user is no answer to that question, and counts as a failure. -/
def ofGroupPermission (user : UserId) (cluster : ClusterId) (permission : Permission) :
    Conversation (Option Decision) :=
  match permission.subject with
  | .group group => return some (.groupGrant group permission.id)
  | .user _ => absorb .groupGrant user cluster (.error (.wrongSubject permission.id))

/-- The decision of a permission that names a group of the user's. -/
def groupGrant (user : UserId) (cluster : ClusterId) : Conversation (Option Decision) := do
  let answer ← Dialogue.request (Call.query (.groupsOf user))
  match ← absorb .groupMembership user cluster answer with
  | none | some [] => return none
  | some groups =>
    let answer ← Dialogue.request (Call.query (.groupGrant groups cluster))
    match (← absorb .groupGrant user cluster answer).join with
    | none => return none
    | some permission => ofGroupPermission user cluster permission

/-- The decision of the user's role. -/
def roleDefault (user : UserId) (cluster : ClusterId) : Conversation Decision := do
  let answer ← Dialogue.request (Call.query (.user user))
  match ← absorb .roleDefault user cluster answer with
  | some (some found) => return if found.isAdmin then .adminRole else .denied .noGrant
  | some none => return .denied .unknownUser
  | none => return .denied .lookupFailed

/-- The first of the three decisions. -/
def decision (user : UserId) (cluster : ClusterId) : Conversation Decision := do
  match ← directGrant user cluster with
  | some decision => return decision
  | none =>
    match ← groupGrant user cluster with
    | some decision => return decision
    | none => roleDefault user cluster

/-- Decides, and notes the decision. -/
def resolve (user : UserId) (cluster : ClusterId) : Conversation Decision := do
  let decision ← Access.decision user cluster
  Dialogue.log (.accessResolved user cluster decision)
  return decision

def hasAccess (user : UserId) (cluster : ClusterId) : Conversation Bool :=
  Decision.isGranted <$> resolve user cluster

/-- The decisions for each of the users, on each of the clusters. -/
def matrix (users : List UserId) (clusters : List ClusterId) :
    Conversation (List (List Decision)) :=
  users.mapM fun user => clusters.mapM fun cluster => resolve user cluster

/-- Lets a principal pass to a cluster.  Nothing but the principal's id matters. -/
def authorize (principal : Principal) (cluster : ClusterId) :
    ExceptT AccessDenied Conversation Unit := do
  if ← hasAccess principal.user cluster then return ()
  else throw { user := principal.user, cluster }

end ClusterAccess.Access
