import ClusterAccess.Proofs.Service.Run
import ClusterAccess.Proofs.Table
import Mathlib.Data.List.Induction

/-!
# Changing memberships

Users are put into groups and taken out of them one pair at a time.  Whether such a request is
carried out is a matter of accounts and group records, which no request changes, so that every
request of a run is judged by the tables that the run starts from.  What becomes of a pair is then
said by the last request for it that is carried out; the requests for other pairs have no part in
that.

A user who is deleted cannot be put into a group and can be taken out of one.
-/

namespace ClusterAccess

/-! ## Requests -/

/-- A request to put a user into a group, or to take one out. -/
inductive MemberRequest where
  | add (m : Membership)
  | remove (m : Membership)
deriving DecidableEq

namespace MemberRequest

def membership : MemberRequest → Membership
  | .add m | .remove m => m

def adds : MemberRequest → Bool
  | .add _ => true
  | .remove _ => false

def step : MemberRequest → Step
  | .add m => .command (.addMember m.group m.user)
  | .remove m => .command (.removeMember m.group m.user)

/-- Requests of both kinds are answered alike. -/
def answer (x : Except AdminError UserGroup) : (r : MemberRequest) → r.step.Answer
  | .add _ | .remove _ => x

/-- What a request makes of memberships when it is carried out. -/
def change (r : MemberRequest) (memberships : SortedSet Membership) : SortedSet Membership :=
  match r with
  | .add m => memberships.insert m
  | .remove m => memberships.erase m

/-- The last of some requests that is about a membership. -/
def lastOn (m : Membership) (requests : List MemberRequest) : Option MemberRequest :=
  (requests.filter fun r => decide (r.membership = m)).getLast?

end MemberRequest

/-- With what error a directory refuses a request, if it does. -/
def Directory.refusal? (d : Directory) : MemberRequest → Option AdminError
  | .add m =>
    if d.groupRecords.contains m.group then
      if (d.user? m.user).isSome then none else some (.notFound (.user m.user))
    else some (.notFound (.group m.group))
  | .remove m => if d.groupRecords.contains m.group then none else some (.notFound (.group m.group))

/-- The error with which a request for a membership was answered. -/
def Entry.refusal? : Entry → Option AdminError
  | ⟨.command (.addMember _ _), .error e⟩ => some e
  | ⟨.command (.removeMember _ _), .error e⟩ => some e
  | _ => none

/-! ## Changes that are carried out -/

namespace MemberRequest

variable {t : SortedSet Membership} {r r' : MemberRequest} {requests : List MemberRequest}
  {m : Membership}

theorem mem_change_iff : m ∈ (r.change t).rows ↔
    if r.membership = m then r.adds = true else m ∈ t.rows := by
  cases r with
  | add m' =>
    refine Table.mem_insert_iff.trans ?_
    by_cases h : m' = m
    · simp [membership, adds, h]
    · simp [membership, h, Ne.symm h]
  | remove m' =>
    refine Table.mem_erase_iff.trans ?_
    by_cases h : m' = m
    · simp [membership, adds, h]
    · simp [membership, h, Ne.symm h]

theorem change_change (r : MemberRequest) (t : SortedSet Membership) :
    r.change (r.change t) = r.change t := by
  refine Table.eq_of_mem_iff fun m => ?_
  simp only [mem_change_iff]
  by_cases h : r.membership = m <;> simp [h]

theorem change_comm (different : r.membership ≠ r'.membership) (t : SortedSet Membership) :
    r.change (r'.change t) = r'.change (r.change t) := by
  refine Table.eq_of_mem_iff fun m => ?_
  simp only [mem_change_iff]
  by_cases h : r.membership = m
  · have h' : r'.membership ≠ m := fun h' => different (h.trans h'.symm)
    simp [h, h']
  · simp [h]

/-- A membership is as the last request for it has left it. -/
theorem mem_foldl_change_iff : m ∈ (requests.foldl (fun t r => r.change t) t).rows ↔
    match lastOn m requests with
    | some r => r.adds = true
    | none => m ∈ t.rows := by
  -- From the end of the list: what comes before its last request for the pair does not matter.
  induction requests using List.reverseRecOn with
  | nil => rfl
  | append_singleton requests r ih =>
    rw [List.foldl_concat, mem_change_iff, ih]
    by_cases h : r.membership = m <;> simp [lastOn, List.filter_append, h]

end MemberRequest

/-! ## Requests to a directory -/

namespace Directory

variable {d d' : Directory} {r r' : MemberRequest} {requests : List MemberRequest}

/-- Only accounts and group records have a part in refusals. -/
theorem refusal?_congr (accounts : d'.accounts = d.accounts)
    (groupRecords : d'.groupRecords = d.groupRecords) : d'.refusal? = d.refusal? := by
  have huser : d'.user? = d.user? := by
    funext id
    rw [user?, user?, accounts]
  funext r
  cases r <;> simp only [refusal?, huser, groupRecords]

/-- The directory after some requests that are carried out. -/
def withRequests (d : Directory) (requests : List MemberRequest) : Directory :=
  { d with memberships := requests.foldl (fun t r => r.change t) d.memberships }

theorem refusal?_withRequests : (d.withRequests requests).refusal? = d.refusal? :=
  refusal?_congr rfl rfl

/-- What a directory answers to a request, and what it becomes. -/
def request (d : Directory) : MemberRequest → Except AdminError UserGroup × Directory
  | .add m => d.addMember m.group m.user
  | .remove m => d.removeMember m.group m.user

/-- A request is refused, or it is carried out and answered with the group. -/
theorem request_cases (d : Directory) (r : MemberRequest) :
    (∃ e, d.refusal? r = some e ∧ d.request r = (.error e, d)) ∨
    ∃ record, d.refusal? r = none ∧ d.groupRecords.find? r.membership.group = some record ∧
      d.request r = (.ok ((d.withRequests [r]).resolve record), d.withRequests [r]) := by
  cases r with
  | add m =>
    simp only [refusal?, Table.contains_eq_isSome, request, addMember, MemberRequest.membership]
    cases hrecord : d.groupRecords.find? m.group with
    | none => exact .inl ⟨_, rfl, rfl⟩
    | some record =>
      by_cases huser : (d.user? m.user).isSome = true
      · exact .inr ⟨record, if_pos huser, rfl, if_pos huser⟩
      · exact .inl ⟨_, if_neg huser, if_neg huser⟩
  | remove m =>
    simp only [refusal?, Table.contains_eq_isSome, request, removeMember, MemberRequest.membership]
    cases hrecord : d.groupRecords.find? m.group with
    | none => exact .inl ⟨_, rfl, rfl⟩
    | some record => exact .inr ⟨record, rfl, rfl, rfl⟩

/-- The requests that a directory does not refuse. -/
def accepted (d : Directory) (requests : List MemberRequest) : List MemberRequest :=
  requests.filter fun r => (d.refusal? r).isNone

theorem accepted_withRequests (requests later : List MemberRequest) :
    (d.withRequests requests).accepted later = d.accepted later := by
  simp only [accepted, refusal?_withRequests]

theorem withRequests_append (requests later : List MemberRequest) :
    (d.withRequests requests).withRequests later = d.withRequests (requests ++ later) := by
  simp only [withRequests, List.foldl_append]

/-- A pair is as the last request for it that is carried out has left it. -/
theorem mem_withRequests_iff {m : Membership} : m ∈ (d.withRequests requests).memberships.rows ↔
    match MemberRequest.lastOn m requests with
    | some r => r.adds = true
    | none => m ∈ d.memberships.rows :=
  MemberRequest.mem_foldl_change_iff

/-- Requests for different pairs can be made in either order. -/
theorem withRequests_swap (different : r.membership ≠ r'.membership)
    (before later : List MemberRequest) :
    d.withRequests (d.accepted (before ++ r' :: r :: later)) =
      d.withRequests (d.accepted (before ++ r :: r' :: later)) := by
  simp only [withRequests, accepted, List.filter_append, List.filter_cons, List.foldl_append]
  by_cases h : (d.refusal? r).isNone = true
  · by_cases h' : (d.refusal? r').isNone = true
    · simp only [h, h', if_true, List.foldl_cons, MemberRequest.change_comm different]
    · simp only [h']
      rfl
  · simp only [h]
    rfl

/-- A user who was not in a group can be put in and taken out again. -/
theorem withRequests_add_remove {m : Membership} (absent : m ∉ d.memberships.rows) :
    d.withRequests (d.accepted [.add m, .remove m]) = d := by
  have hfresh : ∀ x ∈ d.memberships.rows, x ≠ m := fun x hx heq => absent (heq ▸ hx)
  have herase : d.memberships.erase m = d.memberships :=
    Table.eq_of_mem_iff fun x => Table.mem_erase_iff.trans (and_iff_left_of_imp (hfresh x))
  have hsame (memberships : SortedSet Membership) (h : memberships = d.memberships) :
      { d with memberships } = d := by rw [h]
  by_cases hgroup : d.groupRecords.contains m.group = true
  · by_cases huser : (d.user? m.user).isSome = true
    · have haccepted : d.accepted [.add m, .remove m] = [.add m, .remove m] := by
        simp [accepted, refusal?, hgroup, huser]
      rw [haccepted]
      exact hsame _ (Table.erase_insert_fresh hfresh)
    -- A user who is not there is not put in, but taking out is carried out all the same.
    · have haccepted : d.accepted [.add m, .remove m] = [.remove m] := by
        simp [accepted, refusal?, hgroup, huser]
      rw [haccepted]
      exact hsame _ herase
  · have haccepted : d.accepted [.add m, .remove m] = [] := by simp [accepted, refusal?, hgroup]
    rw [haccepted]
    rfl

theorem request_snd (d : Directory) (r : MemberRequest) :
    (d.request r).2 = d.withRequests (d.accepted [r]) := by
  rcases d.request_cases r with ⟨e, hrefused, hrequest⟩ | ⟨record, haccepted, -, hrequest⟩
  · simp [hrequest, accepted, hrefused, withRequests]
  · simp [hrequest, accepted, haccepted]

/-- A request is answered with an error if it is refused. -/
theorem refusal?_request (d : Directory) (r : MemberRequest) :
    (match (d.request r).1 with
      | .ok _ => none
      | .error e => some e) = d.refusal? r := by
  rcases d.request_cases r with ⟨e, hrefused, hrequest⟩ | ⟨record, haccepted, -, hrequest⟩
  · rw [hrequest, hrefused]
  · rw [hrequest, haccepted]

/-- A request that is made again is answered again in the same way, and nothing changes. -/
theorem request_again (d : Directory) (r : MemberRequest) :
    (d.request r).2.request r = d.request r := by
  rcases d.request_cases r with ⟨e, -, hrequest⟩ | ⟨record, haccepted, hrecord, hrequest⟩
  · rw [hrequest, hrequest]
  · have htwice : (d.withRequests [r]).withRequests [r] = d.withRequests [r] := by
      simp only [withRequests, List.foldl_cons, List.foldl_nil, MemberRequest.change_change]
    rcases (d.withRequests [r]).request_cases r with ⟨e, hrefused, -⟩ | ⟨record', -, hsame, hagain⟩
    · rw [refusal?_withRequests, haccepted] at hrefused
      cases hrefused
    · obtain rfl : record = record' := Option.some.inj (hrecord.symm.trans hsame)
      rw [hrequest, hagain, htwice]

end Directory

/-! ## Runs of requests -/

theorem Entry.refusal?_answer (r : MemberRequest) (x : Except AdminError UserGroup) :
    Entry.refusal? ⟨r.step, r.answer x⟩ =
      match x with
      | .ok _ => none
      | .error e => some e := by
  cases r <;> cases x <;> rfl

namespace Store

theorem perform_request (d : Directory) (r : MemberRequest) :
    (holding d).perform r.step = (r.answer (d.request r).1, .holding (d.request r).2) := by
  cases r <;> exact perform_eq d _

/-- Every request of a run is judged by the directory from which the run starts. -/
theorem serve_requests (d : Directory) (requests : List MemberRequest) :
    ((holding d).serve (requests.map MemberRequest.step)).1.map Entry.refusal? =
        requests.map d.refusal? ∧
      ((holding d).serve (requests.map MemberRequest.step)).2 =
        .holding (d.withRequests (d.accepted requests)) := by
  induction requests generalizing d with
  | nil => exact ⟨rfl, rfl⟩
  | cons r requests ih =>
    obtain ⟨hrefusals, hstore⟩ := ih (d.withRequests (d.accepted [r]))
    have hsplit : d.accepted (r :: requests) = d.accepted [r] ++ d.accepted requests :=
      List.filter_append [r] requests
    rw [List.map_cons, serve_cons, perform_request, d.request_snd]
    refine ⟨?_, ?_⟩
    · rw [List.map_cons, List.map_cons, hrefusals, Directory.refusal?_withRequests,
        Entry.refusal?_answer, d.refusal?_request]
    · rw [hstore, Directory.accepted_withRequests, Directory.withRequests_append, hsplit]

/-- **Memberships are as the last requests that were carried out have left them.**  On any directory
let any requests be made to put users into groups and to take users out.

Which of them are refused, and with what error, is settled by the accounts and group records at the
start.  No other table changes, and no counter; and each pair is in the memberships or not as the
last request for it says that was not refused, or as it was where there is none.  So requests for
different pairs can be swapped anywhere; a request made twice is answered twice with the same group
and changes nothing the second time; and a user who was not in a group and is put in and taken out
leaves everything as it was. -/
theorem serve_memberships (d : Directory) (requests : List MemberRequest) :
    let serve (requests : List MemberRequest) :=
      (holding d).serve (requests.map MemberRequest.step)
    let run := serve requests
    let accepted := d.accepted requests
    run.1.map Entry.refusal? = requests.map d.refusal? ∧
    (∀ other : Directory, other.accounts = d.accounts → other.groupRecords = d.groupRecords →
      other.refusal? = d.refusal?) ∧
    run.2 = .holding { d with memberships := run.2.directory.memberships } ∧
    (∀ m, m ∈ run.2.directory.memberships.rows ↔
      match MemberRequest.lastOn m accepted with
      | some r => r.adds = true
      | none => m ∈ d.memberships.rows) ∧
    (∀ before r r' later, r.membership ≠ r'.membership → requests = before ++ r :: r' :: later →
      (serve (before ++ r' :: r :: later)).2 = run.2) ∧
    (∀ r : MemberRequest, (run.2.perform r.step).2.perform r.step = run.2.perform r.step) ∧
    ∀ m, m ∉ run.2.directory.memberships.rows →
      (serve (requests ++ [.add m, .remove m])).2 = run.2 := by
  intro serve run accepted
  have hserve (requests : List MemberRequest) :
      (serve requests).2 = .holding (d.withRequests (d.accepted requests)) :=
    (serve_requests d requests).2
  have hrun : run.2 = .holding (d.withRequests accepted) := hserve requests
  rw [hrun]
  refine ⟨(serve_requests d requests).1, fun other => Directory.refusal?_congr, rfl,
    fun m => Directory.mem_withRequests_iff, fun before r r' later different hrequests => ?_,
    fun r => ?_, fun m absent => ?_⟩
  · rw [← hrun, hserve, Directory.withRequests_swap different, ← hrequests]
    exact hrun.symm
  · rw [perform_request, perform_request, Directory.request_again]
  · have happend : d.accepted (requests ++ [.add m, .remove m]) =
        accepted ++ (d.withRequests accepted).accepted [.add m, .remove m] := by
      rw [Directory.accepted_withRequests]
      exact List.filter_append requests _
    rw [hserve, happend, ← Directory.withRequests_append,
      Directory.withRequests_add_remove absent]

/-- A user was deleted while in a group, and another is in no group.  The first can be taken out and
not be put in again; the second is put in twice, and then into a group that there is not. -/
theorem serve_memberships_deleted :
    let d := (({} : Store).serve [.insertUser { username := "ada" },
      .insertUser { username := "eve" }, .command (.createGroup "ops" ""),
      .command (.addMember ⟨1⟩ ⟨1⟩), .softDelete ⟨1⟩]).2.directory
    let ada : Membership := ⟨⟨1⟩, ⟨1⟩⟩
    let eve : Membership := ⟨⟨1⟩, ⟨2⟩⟩
    let later : List MemberRequest := [.add ada, .add eve, .add ⟨⟨7⟩, ⟨2⟩⟩]
    let requests : List MemberRequest := [.add ada] ++ .add eve :: .remove ada :: later
    let serve (requests : List MemberRequest) :=
      (holding d).serve (requests.map MemberRequest.step)
    let run := serve requests
    run.1.map Entry.refusal? =
        [some (.notFound (.user ⟨1⟩)), none, none, some (.notFound (.user ⟨1⟩)), none,
          some (.notFound (.group ⟨7⟩))] ∧
      ada ∉ run.2.directory.memberships.rows ∧
      eve ∈ run.2.directory.memberships.rows ∧
      (serve ([.add ada] ++ .remove ada :: .add eve :: later)).2 = run.2 ∧
      (serve (requests ++ [.add ada, .remove ada])).2 = run.2 := by
  intro d ada eve later requests serve run
  obtain ⟨hrefusals, -, -, hlast, hswap, -, hundone⟩ := serve_memberships d requests
  have hremoved : MemberRequest.lastOn ada (d.accepted requests) = some (.remove ada) := by decide
  have hadded : MemberRequest.lastOn eve (d.accepted requests) = some (.add eve) := by decide
  refine ⟨hrefusals.trans (by decide), ?_, ?_,
    hswap [.add ada] (.add eve) (.remove ada) later (by decide) rfl, hundone ada ?_⟩
  · rw [hlast, hremoved]
    exact Bool.false_ne_true
  · rw [hlast, hadded]
    rfl
  · rw [hlast, hremoved]
    exact Bool.false_ne_true

end Store

end ClusterAccess
