import ServiceBalancer.Proofs.Cloud.Names

/-! Creating and updating balancers. A call that meets no failure sets up the balancer that the service finds, or else a
new one, and leaves all others as they are; made again it changes nothing. A call that fails changes no balancer. -/
namespace ServiceBalancer.MemoryCloud
variable {c : MemoryCloud} {svc : Service} {nodes : List Node} {b : Balancer}

/-- Whether a balancer is the one of a service once a call has set it up. It is the one that was found before, or has an
id that was never given out. All others are as they were. -/
structure SetUp (c : MemoryCloud) (svc : Service) (nodes : List Node) (b : Balancer) (c' : MemoryCloud) : Prop where
  found : c'.find? svc = some (some b)
  listeners : b.listeners = ((svc.spec.bind (·.ports)).getD []).map fun p =>
    ⟨p.port, p.protocol.getD "TCP", p.nodePort.getD 0⟩
  backends : b.backends = nodes.map Node.name
  tags : b.userManaged = false → b.tags = svc.tags
  kept : ∀ old, c.find? svc = some (some old) → b.id = old.id ∧ b.name = old.name ∧ b.address = old.address ∧
    b.userManaged = old.userManaged ∧ (b.userManaged = true → b.tags = old.tags) ∧ c'.allocated = c.allocated
  made : c.find? svc = some none → b.userManaged = false ∧ svc.balancerName? = some b.name ∧
    c'.allocated = c.allocated + 1 ∧ b.id = idOf c'.allocated ∧ b.address = addressOf c'.allocated ∧
    c.balancers.get? b.id = none ∧ ∀ n ≤ c.allocated, b.id ≠ idOf n
  others : ∀ id, id ≠ b.id → c'.balancers.get? id = c.balancers.get? id

/-- What comes of a call that is to create or update the balancer of a service. -/
inductive Upshot (c : MemoryCloud) (svc : Service) (nodes : List Node) :
    Outcome BalancerStatus × MemoryCloud → Prop where
  | failed {message : String} {c' : MemoryCloud} : c.failures.head? = some message → c.Alike c' →
    Upshot c svc nodes (some (.error (.classified c.rules message)), c')
  | refused {id : String} {c' : MemoryCloud} : c.failures = [] → svc.givenBalancerId? = some id →
    c.balancers.get? id = none → c.Alike c' → Upshot c svc nodes (some (.error (missingId id)), c')
  | done {b : Balancer} {c' : MemoryCloud} : c.failures = [] → c.SetUp svc nodes b c' →
    (∀ again, c'.Alike again → again.failures = [] →
      (again.ensure svc nodes).1 = some (.ok ⟨some [{ ip := some b.address }]⟩) ∧
        again.Alike (again.ensure svc nodes).2) →
    Upshot c svc nodes (some (.ok ⟨some [{ ip := some b.address }]⟩), c')

private def shop : Service := { info := { uid := some "u1" }, spec := some { ports := some [{ port := 80 }] } }

end ServiceBalancer.MemoryCloud
