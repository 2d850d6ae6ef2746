import ServiceBalancer.Cloud.Memory

/-! What the calls of a cloud come to. Each is put in the journal and takes the oldest failure that waits. Without one
it goes by what the service finds. -/
namespace ServiceBalancer.MemoryCloud
variable {c c' : MemoryCloud}

def Alike (c c' : MemoryCloud) : Prop := c'.balancers = c.balancers ∧ c'.allocated = c.allocated

theorem Alike.refl (c : MemoryCloud) : c.Alike c := ⟨rfl, rfl⟩

theorem Alike.trans {c'' : MemoryCloud} (h : c.Alike c') (h' : c'.Alike c'') : c.Alike c'' :=
  ⟨h'.1.trans h.1, h'.2.trans h.2⟩

theorem Alike.find? (h : c.Alike c') (svc : Service) : c'.find? svc = c.find? svc := by
  simp only [MemoryCloud.find?, h.1]

/-! ### The journal and the failures -/

def noted (c : MemoryCloud) (call : CloudCall) : MemoryCloud :=
  { c with calls := c.calls ++ [call], failures := c.failures.tail }

theorem alike_noted (c : MemoryCloud) (call : CloudCall) : c.Alike (c.noted call) := ⟨rfl, rfl⟩

/-- What is found is not a matter of what was noted. -/
theorem find?_noted (c : MemoryCloud) (call : CloudCall) (svc : Service) : (c.noted call).find? svc = c.find? svc :=
  (c.alike_noted call).find? svc

theorem begin_calm (hf : c.failures = []) (call : CloudCall) : c.begin call = (.ok (), c.noted call) := by
  simp only [begin, noted, hf, List.tail_nil]

theorem begin_failing {message : String} {rest : List String} (hf : c.failures = message :: rest) (call : CloudCall) :
    c.begin call = (.error (.classified c.rules message), c.noted call) := by
  simp only [begin, noted, hf, List.tail_cons]

/-! ### Asking -/

/-- The ways that a call can go which asks for the balancer of a service, each with what it tells and the cloud that it
leaves. -/
inductive Looked (c : MemoryCloud) (svc : Service) : Outcome (Option BalancerDescriptor) × MemoryCloud → Prop where
  | failed {message : String} {rest : List String} : c.failures = message :: rest →
    Looked c svc (some (.error (.classified c.rules message)), c.noted (.lookup (svc.info.uid.getD "")))
  | told : c.failures = [] → Looked c svc
    ((c.find? svc).map fun found => .ok (found.map Balancer.descriptor), c.noted (.lookup (svc.info.uid.getD "")))

theorem looked (c : MemoryCloud) (svc : Service) : c.Looked svc (c.lookup svc) := by
  cases hf : c.failures with
  | cons message rest =>
    simp only [lookup, begin_failing hf]
    exact .failed hf
  | nil =>
    simp only [lookup, begin_calm hf, find?_noted]
    exact .told hf

/-! ### Creating and updating -/

abbrev asked (c : MemoryCloud) (svc : Service) (nodes : List Node) : MemoryCloud :=
  c.noted (.ensure (svc.info.uid.getD "") (nodes.map Node.name))

def updated (c : MemoryCloud) (svc : Service) (nodes : List Node) (b : Balancer) : MemoryCloud :=
  { c.asked svc nodes with balancers := c.balancers.insert b.id (configure b svc nodes) }

def blank (n : Nat) (name : String) : Balancer := { id := idOf n, name, address := addressOf n, userManaged := false }

def extended (c : MemoryCloud) (svc : Service) (nodes : List Node) (name : String) : MemoryCloud :=
  { c.asked svc nodes with
    allocated := c.allocated + 1
    balancers := c.balancers.insert (idOf (c.allocated + 1)) (configure (blank (c.allocated + 1) name) svc nodes) }

inductive Ensured (c : MemoryCloud) (svc : Service) (nodes : List Node) :
    Outcome BalancerStatus × MemoryCloud → Prop where
  | failed {message : String} {rest : List String} : c.failures = message :: rest →
    Ensured c svc nodes (some (.error (.classified c.rules message)), c.asked svc nodes)
  | unnamed : c.failures = [] → c.find? svc = none → Ensured c svc nodes (none, c.asked svc nodes)
  | updated {b : Balancer} : c.failures = [] → c.find? svc = some (some b) →
    Ensured c svc nodes (some (.ok b.status), c.updated svc nodes b)
  | refused {id : String} : c.failures = [] → c.find? svc = some none → svc.givenBalancerId? = some id →
    Ensured c svc nodes (some (.error (missingId id)), c.asked svc nodes)
  | extended {name : String} : c.failures = [] → c.find? svc = some none → svc.givenBalancerId? = none →
    svc.balancerName? = some name →
    Ensured c svc nodes (some (.ok (blank (c.allocated + 1) name).status), c.extended svc nodes name)

theorem ensured (c : MemoryCloud) (svc : Service) (nodes : List Node) : c.Ensured svc nodes (c.ensure svc nodes) := by
  cases hf : c.failures with
  | cons message rest =>
    simp only [ensure, begin_failing hf]
    exact .failed hf
  | nil =>
    simp only [ensure, begin_calm hf, find?_noted]
    cases hfind : c.find? svc with
    | none => exact .unnamed hf hfind
    | some found =>
      cases found with
      | some b => exact .updated hf hfind
      | none =>
        cases hg : svc.givenBalancerId? with
        | some id => exact .refused hf hfind hg
        | none =>
          cases hn : svc.balancerName? with
          | none => simp [find?, hg, hn] at hfind
          | some name => exact .extended hf hfind hg hn

/-! ### Deleting -/

abbrev dismissed (c : MemoryCloud) (svc : Service) : MemoryCloud := c.noted (.delete (svc.info.uid.getD ""))

def emptied (c : MemoryCloud) (svc : Service) (b : Balancer) : MemoryCloud :=
  { c.dismissed svc with balancers := c.balancers.insert b.id { b with listeners := [], backends := [] } }

def stripped (c : MemoryCloud) (svc : Service) (b : Balancer) : MemoryCloud :=
  { c.dismissed svc with balancers := c.balancers.erase b.id }

inductive Deleted (c : MemoryCloud) (svc : Service) : Outcome Unit × MemoryCloud → Prop where
  | failed {message : String} {rest : List String} : c.failures = message :: rest →
    Deleted c svc (some (.error (.classified c.rules message)), c.dismissed svc)
  | unnamed : c.failures = [] → c.find? svc = none → Deleted c svc (none, c.dismissed svc)
  | absent : c.failures = [] → c.find? svc = some none → Deleted c svc (some (.ok ()), c.dismissed svc)
  | emptied {b : Balancer} : c.failures = [] → c.find? svc = some (some b) → svc.givenBalancerId?.isSome →
    Deleted c svc (some (.ok ()), c.emptied svc b)
  | stripped {b : Balancer} : c.failures = [] → c.find? svc = some (some b) → svc.givenBalancerId? = none →
    Deleted c svc (some (.ok ()), c.stripped svc b)

theorem deleted (c : MemoryCloud) (svc : Service) : c.Deleted svc (c.delete svc) := by
  cases hf : c.failures with
  | cons message rest =>
    simp only [delete, begin_failing hf]
    exact .failed hf
  | nil =>
    simp only [delete, begin_calm hf, find?_noted]
    cases hfind : c.find? svc with
    | none => exact .unnamed hf hfind
    | some found =>
      cases found with
      | none => exact .absent hf hfind
      | some b =>
        cases hg : svc.givenBalancerId? with
        | some id => exact .emptied hf hfind (by simp [hg])
        | none => exact .stripped hf hfind hg

/-! ### What every call leaves -/

/-- Whether all that a call has left in the journal is itself, and all that it has taken of the failures is the oldest. -/
structure Notes (c : MemoryCloud) (call : CloudCall) (c' : MemoryCloud) : Prop where
  calls : c'.calls = c.calls ++ [call]
  failures : c'.failures = c.failures.tail

theorem notes_lookup (c : MemoryCloud) (svc : Service) :
    c.Notes (.lookup (svc.info.uid.getD "")) (c.lookup svc).2 := by
  have hgo := c.looked svc
  generalize c.lookup svc = r at hgo ⊢
  cases hgo <;> exact ⟨rfl, rfl⟩

theorem notes_ensure (c : MemoryCloud) (svc : Service) (nodes : List Node) :
    c.Notes (.ensure (svc.info.uid.getD "") (nodes.map Node.name)) (c.ensure svc nodes).2 := by
  have hgo := c.ensured svc nodes
  generalize c.ensure svc nodes = r at hgo ⊢
  cases hgo <;> exact ⟨rfl, rfl⟩

theorem notes_delete (c : MemoryCloud) (svc : Service) :
    c.Notes (.delete (svc.info.uid.getD "")) (c.delete svc).2 := by
  have hgo := c.deleted svc
  generalize c.delete svc = r at hgo ⊢
  cases hgo <;> exact ⟨rfl, rfl⟩

/-- A call that asks changes nothing. -/
theorem lookup_alike (c : MemoryCloud) (svc : Service) : c.Alike (c.lookup svc).2 := by
  have hgo := c.looked svc
  generalize c.lookup svc = r at hgo ⊢
  cases hgo <;> exact c.alike_noted _

end ServiceBalancer.MemoryCloud
