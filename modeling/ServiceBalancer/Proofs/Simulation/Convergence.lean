import ServiceBalancer.Proofs.Cloud.Names
import ServiceBalancer.Proofs.Simulation.Execution

/-! A sync that meets no failure. Whatever the cloud, the cluster and the cache have come to before, it ends well, and
then they agree on what the service asks for. -/
namespace ServiceBalancer

/-- What makes a node a backend of a service: no label bars it from balancers, it takes new work unless the service has
no eye to that, it runs the control plane only if traffic may enter through any node, and it stands for an elastic pool
or reports conditions none of which denies that it is ready. -/
def Service.Qualifies (svc : Service) (n : Node) : Prop :=
  (∀ label ∈ [WellKnown.excludeFromBalancers, WellKnown.excludeFromBalancersLegacy],
    n.info.labelMap.get? label = none) ∧
  (n.unschedulable = true → svc.info.annotationMap.get? WellKnown.removeUnscheduledBackend ≠ some "on") ∧
  ((∃ label ∈ [WellKnown.nodeRoleMaster, WellKnown.nodeRoleControlPlane], n.info.labelMap.get? label ≠ none) →
    svc.spec.bind (·.externalTrafficPolicy) = some "Cluster") ∧
  (n.info.labelMap.get? WellKnown.nodeType = some WellKnown.virtualNodeType ∨
    n.conditions ≠ [] ∧ ∀ c ∈ n.conditions, c.type = "Ready" → c.status = "True")

instance (svc : Service) (n : Node) : Decidable (svc.Qualifies n) := inferInstanceAs (Decidable (_ ∧ _ ∧ _ ∧ _))

theorem Node.isReady_iff (n : Node) :
    n.isReady = true ↔ n.conditions ≠ [] ∧ ∀ c ∈ n.conditions, c.type = "Ready" → c.status = "True" := by
  simp [isReady, Decidable.imp_iff_not_or]

theorem Service.accepts_iff (svc : Service) (n : Node) : svc.accepts n = true ↔
    (n.unschedulable = true → svc.dropsUnschedulable = false) ∧ (n.isMaster = true → svc.routesClusterWide = true) ∧
      (n.isVirtual = true ∨ n.isReady = true) := by
  unfold accepts
  cases n.unschedulable <;> cases svc.dropsUnschedulable <;> cases n.isMaster <;> cases svc.routesClusterWide <;> simp

theorem Service.availableNodes_eq (svc : Service) (nodes : List Node) :
    svc.availableNodes nodes = nodes.filter fun n => svc.Qualifies n := by
  refine List.filter_congr fun n _ => Bool.eq_iff_iff.mpr ?_
  have hbarred : n.isExcluded = false ↔ ∀ label ∈ [WellKnown.excludeFromBalancers, WellKnown.excludeFromBalancersLegacy],
      n.info.labelMap.get? label = none := by
    simp [Node.isExcluded, SortedMap.contains]
  have hmaster : n.isMaster = true ↔ ∃ label ∈ [WellKnown.nodeRoleMaster, WellKnown.nodeRoleControlPlane],
      n.info.labelMap.get? label ≠ none := by
    simp [Node.isMaster, SortedMap.contains, Option.isSome_iff_ne_none]
  rw [decide_eq_true_iff, Service.Qualifies, ← hbarred, ← hmaster, ← n.isReady_iff, Bool.and_eq_true, Bool.not_eq_true',
    svc.accepts_iff, dropsUnschedulable, decide_eq_false_iff_not, routesClusterWide, decide_eq_true_iff, Node.isVirtual,
    decide_eq_true_iff]

/-- The tags that a service asks for are those that are written in an annotation, if it has that. -/
theorem Service.tags_eq (svc : Service) : svc.tags =
    match svc.info.annotations.bind (·.get? WellKnown.additionalResourceTags) with
    | some written => Tags.parse written
    | none => ∅ := by
  rw [tags, Tags.ofAnnotations, Meta.annotationMap]
  cases svc.info.annotations <;> rfl

namespace Simulation
open Sync

/-- Whether no failure waits for the calls that a sync of a wanted service makes. -/
structure World.Calm (w : World) : Prop where
  cloud : w.cloud.failures = []
  status : w.cluster.statusFailures = []
  service : w.faults.service = []
  nodes : w.faults.nodes = []
  setHash : w.faults.setHash = []

/-- What a sync comes to for a service with some backends: its balancer takes traffic on the ports of the service for the
nodes in their order, and has the tags that are written in its annotation if the controller owns it. The service shows
the address of the balancer and the hash of its own content, and is else unchanged. All of that is remembered. -/
structure Converged (settings : SyncSettings) (key : ServiceKey) (svc : Service) (nodes : List Node) (live : Service)
    (b : Balancer) (w : World) : Prop where
  stored : w.cluster.service? key.ns key.name = some live
  unchanged : live.spec = svc.spec ∧ live.info.annotations = svc.info.annotations ∧ live.info.uid = svc.info.uid
  found : w.cloud.find? live = some (some b)
  listeners : b.listeners = ((svc.spec.bind (·.ports)).getD []).map fun p =>
    ⟨p.port, p.protocol.getD "TCP", p.nodePort.getD 0⟩
  backends : b.backends = nodes.map fun n => n.info.name.getD (n.info.generateName.getD "")
  tags : b.userManaged = false → b.tags =
    match svc.info.annotations.bind (·.get? WellKnown.additionalResourceTags) with
    | some written => Tags.parse written
    | none => ∅
  shown : (live.status.bind (·.loadBalancer)).bind (·.ingress) = some [{ ip := some b.address }]
  hash : live.info.labels.bind (·.get? WellKnown.serviceHash) = some (live.hash settings.digest)
  remembered : w.cache.get? key = some {
    service := svc
    uid := live.info.uid
    status := { ingress := some [{ ip := some b.address }] }
    fingerprint := some (live.fingerprint settings.digest nodes) }

variable {settings : SyncSettings} {key : ServiceKey} {svc live : Service} {nodes : List Node} {status : BalancerStatus}
  {entry : Option CacheEntry} {uid : String} {w : World} {time : Nat}

/-! ### Parts of a sync -/

theorem succeeds_delete {post : Unit → World → Prop} (hr : (w.cloud.delete svc).1 = some (.ok ()))
    (hp : ∀ metrics journal, post ()
      { w with cloud := (w.cloud.delete svc).2, cache := w.cache.erase (.ofService svc), metrics, journal }) :
    Succeeds time (delete settings svc) w post := by
  obtain ⟨journal, he⟩ := w.answer_delete_whole time svc
  rw [hr] at he
  refine .retrying (.bind (succeeds_ask he (.bind (succeeds_ask rfl ?_))))
  exact .bind (succeeds_ask rfl (succeeds_ask rfl (hp _ _)))

theorem succeeds_push {post : BalancerStatus → World → Prop} (hr : (w.cloud.ensure svc nodes).1 = some (.ok status))
    (hp : ∀ metrics journal, post status { w with cloud := (w.cloud.ensure svc nodes).2, metrics, journal }) :
    Succeeds time (push key svc nodes) w post := by
  -- The warning that there are no nodes leaves the cloud as it is.
  let warned := w.record time ⟨.ofService svc, .warning, Event.unavailable, "There are no available nodes for LoadBalancer"⟩
  unfold push
  split
  case isTrue =>
    obtain ⟨journal, he⟩ := warned.answer_ensure_whole time svc nodes
    rw [show (warned.cloud.ensure svc nodes).1 = some (.ok status) from hr] at he
    refine .bind (succeeds_ask rfl (.bind (succeeds_ask he (.bind (succeeds_ask rfl ?_)))))
    exact .bind (succeeds_ask rfl (succeeds_pure (hp _ _)))
  case isFalse =>
    obtain ⟨journal, he⟩ := w.answer_ensure_whole time svc nodes
    rw [hr] at he
    refine .bind (succeeds_ask he (.bind (succeeds_ask rfl ?_)))
    exact .bind (succeeds_ask rfl (succeeds_pure (hp _ _)))

/-- A service is labelled, or has its label already. -/
theorem succeeds_stampHash {post : Unit → World → Prop} (hf : w.faults.setHash = [])
    (hl : w.cluster.services.get? svc.info.key = some svc)
    (hp : ∀ cluster journal live, cluster.statusFailures = w.cluster.statusFailures →
      cluster.services.get? svc.info.key = some live → live.core = svc.core →
      live.info.labelMap.get? WellKnown.serviceHash = some (svc.hash settings.digest) →
      live.balancerStatus = svc.balancerStatus → post () { w with cluster, journal }) :
    Succeeds time (stampHash settings svc) w post := by
  simp only [stampHash]
  split
  · next hlabel => exact succeeds_pure (hp w.cluster w.journal svc rfl hl rfl hlabel rfl)
  · obtain ⟨journal, he⟩ := World.answer_setHash_calm time hf svc (svc.hash settings.digest)
    obtain ⟨hfailures, live, hlive, hcore, hlabel, hstatus⟩ := MemoryCluster.setHash_found hl (svc.hash settings.digest)
    exact succeeds_granted ((run_request _ w).trans he) (hp _ journal live hfailures hlive hcore hlabel hstatus)

/-- A status is written to the latest version of a service, or is there already. -/
theorem succeeds_publish {post : Unit → World → Prop} (hf : w.cluster.statusFailures = [])
    (hl : w.cluster.services.get? svc.info.key = some live) (hs : live.balancerStatus = svc.balancerStatus)
    (hp : ∀ cluster journal written, cluster.services.get? svc.info.key = some written → written.core = live.core →
      written.info.labels = live.info.labels → written.balancerStatus.addresses = status.addresses →
      post () { w with cluster, journal }) : Succeeds time (publish settings key svc status) w post := by
  unfold publish
  split
  · next hagrees =>
    have haddresses : live.balancerStatus.addresses = status.addresses := by
      rw [hs]
      simpa [BalancerStatus.agrees] using hagrees
    exact succeeds_pure (hp w.cluster w.journal live hl rfl rfl haddresses)
  · obtain ⟨journal, he⟩ := w.answer_writeStatus time svc status
    obtain ⟨hok, written, hw, hcore, hlabels, hstatus⟩ := MemoryCluster.updateStatus_calm hf hl status
    rw [hok] at he
    have haddresses := congrArg BalancerStatus.addresses hstatus
    exact .retrying (.bind (succeeds_ask he (succeeds_pure (hp _ journal written hw hcore hlabels haddresses))))

/-! ### The whole -/

/-- What is set up for one version of a service is so for another with the same core. -/
theorem Converged.of_core {b : Balancer} (hl : w.cluster.services.get? key.slot = some live) (hsame : live.core = svc.core)
    (hfind : w.cloud.find? svc = some (some b)) (hlisteners : b.listeners = svc.listeners)
    (hbackends : b.backends = nodes.map Node.name) (htags : b.userManaged = false → b.tags = svc.tags)
    (hshown : live.balancerStatus.addresses = [{ ip := some b.address }])
    (hhash : live.info.labelMap.get? WellKnown.serviceHash = some (svc.hash settings.digest))
    (hr : w.cache.get? key = some ⟨svc, svc.info.uid, b.status, some (svc.fingerprint settings.digest nodes)⟩) :
    Converged settings key svc nodes live b w where
  stored := hl
  unchanged := ⟨Service.eq_of_core (·.spec) (fun _ => rfl) hsame,
    Service.eq_of_core (·.info.annotations) (fun _ => rfl) hsame, Service.eq_of_core (·.info.uid) (fun _ => rfl) hsame⟩
  found := (Service.eq_of_core w.cloud.find? (fun _ => rfl) hsame).trans hfind
  listeners := hlisteners
  backends := hbackends
  tags hown := (htags hown).trans svc.tags_eq
  shown := by
    rw [live.addresses_balancerStatus] at hshown
    cases hingress : (live.status.bind (·.loadBalancer)).bind (·.ingress) with
    | none =>
      rw [hingress] at hshown
      cases hshown
    | some ingress => exact congrArg some (by rwa [hingress] at hshown)
  hash := by
    rw [Meta.labelMap, ← Service.eq_of_core (Service.hash settings.digest) (fun _ => rfl) hsame] at hhash
    cases hlabels : live.info.labels with
    | none =>
      rw [hlabels] at hhash
      cases hhash
    | some labels => rwa [hlabels] at hhash
  remembered := by
    rw [hr, Service.eq_of_core (·.info.uid) (fun _ => rfl) hsame,
      Service.eq_of_core (fun svc => svc.fingerprint settings.digest nodes) (fun _ => rfl) hsame]
    rfl

/-- What is remembered of a service without its present fingerprint is no reason to leave the cloud alone. -/
theorem succeeds_converge (hkey : svc.info.key = key.slot) (hl : w.cluster.services.get? key.slot = some svc)
    (hv : svc.info.uid = some uid) (hcalm : w.Calm) (hsound : w.cloud.Sound) (hserves : w.cloud.Serves svc)
    (hstale : ∀ old, entry = some old →
      old.fingerprint ≠ some (svc.fingerprint settings.digest (svc.availableNodes w.cluster.nodes.values))) :
    Succeeds time (converge settings key svc uid entry) w fun _ w' => ∃ live b,
      Converged settings key svc (svc.availableNodes w.cluster.nodes.values) live b w' := by
  have hnodes := (run_request .nodes w).trans (World.answer_nodes_calm time hcalm.nodes)
  have hfilter : entry.filter (fun old => old.fingerprint =
      some (svc.fingerprint settings.digest (svc.availableNodes w.cluster.nodes.values))) = none :=
    Option.filter_eq_none_iff.mpr fun old ho => by simpa using hstale old ho
  obtain ⟨status, hensure⟩ := (hserves.ensure hcalm.cloud (svc.availableNodes w.cluster.nodes.values)).1
  obtain ⟨b, hfind, hlisteners, hbackends, htags, rfl⟩ := hsound.ensure_ok hensure
  refine .bind (.bind (succeeds_granted hnodes ?_))
  simp only [hfilter]
  refine .bind (succeeds_push hensure fun metrics journal => .bind ?_)
  refine succeeds_stampHash hcalm.setHash (hkey ▸ hl) fun cluster journal live hfailures hlive hcore hlabel hstatus => ?_
  refine succeeds_pure (.bind (succeeds_publish (hfailures.trans hcalm.status) hlive hstatus ?_))
  intro cluster journal written hwritten hcore' hlabels haddresses
  rw [hkey] at hwritten
  refine succeeds_ask rfl ⟨written, b, ?_⟩
  refine .of_core hwritten (hcore'.trans hcore) hfind hlisteners hbackends htags haddresses ?_ ?_
  · rw [Meta.labelMap, hlabels]
    exact hlabel
  · simp [World.reply, hv]

/-- From whatever cluster, cloud and cache, if no failure waits, a sync of a service that can be given a balancer ends
well, if it has no reason to leave the cloud alone: nothing is remembered of the service under its UID, or not its
present fingerprint. It then has all come to what the service asks for. -/
theorem sync_converges (settings : SyncSettings) (time : Nat) (hc : w.cluster.Reachable) (hb : w.cloud.Reachable)
    (hcalm : w.Calm) (hs : w.cluster.service? key.ns key.name = some svc) (hn : svc.needsBalancer = true)
    (hv : svc.info.uid = some uid) (hascii : ∀ c ∈ uid.toList, c.toNat < 128)
    (hid : ∀ id, svc.givenBalancerId? = some id → (w.cloud.balancers.get? id).isSome)
    (hstale : ∀ entry, w.cache.get? key = some entry → entry.uid ≠ some uid ∨ entry.fingerprint ≠
      some (svc.fingerprint settings.digest (w.cluster.nodes.values.filter fun n => svc.Qualifies n))) :
    ∃ w' live b, (program settings key).run (World.answer time) w = (some (.ok ()), w') ∧
      Converged settings key svc (w.cluster.nodes.values.filter fun n => svc.Qualifies n) live b w' := by
  rw [← svc.availableNodes_eq] at hstale ⊢
  have hkey : svc.info.key = key.slot := hc.keyed _ _ hs
  have hserves : w.cloud.Serves svc := by
    refine MemoryCloud.serves_of_name ?_ hid
    rw [Service.balancerName?, hv]
    exact isSome_balancerNameOf? hascii
  have hupdate : Succeeds time (update settings key (w.cache.get? key) svc) w fun _ w' => ∃ live b,
      Converged settings key svc (svc.availableNodes w.cluster.nodes.values) live b w' := by
    simp only [update, hv, hn, if_true]
    refine .bind ?_
    unfold sameIdentity
    split
    · exact succeeds_pure (succeeds_converge hkey hs hv hcalm hb.sound hserves fun _ h => by cases h)
    · next old hold =>
      split
      · next hu =>
        refine succeeds_pure (succeeds_converge hkey hs hv hcalm hb.sound hserves ?_)
        rintro _ ⟨⟩
        exact (hstale old hold).resolve_left fun hne => hne hu
      · -- The balancer is deleted first, and then there may be another one of the same name.
        obtain ⟨hdelete, hserves', hfailures⟩ := hserves.delete hb.sound hcalm.cloud
        refine .bind (succeeds_delete hdelete fun metrics journal => succeeds_pure ?_)
        exact succeeds_converge hkey hs hv ⟨hfailures, hcalm.status, hcalm.service, hcalm.nodes, hcalm.setHash⟩
          (hb.sound.delete svc) hserves' fun _ h => by cases h
  have hservice := (run_request (.service key) w).trans (World.answer_service_calm time hcalm.service key)
  have hall : Succeeds time (reconcile settings key) w fun _ w' => ∃ live b,
      Converged settings key svc (svc.availableNodes w.cluster.nodes.values) live b w' := by
    refine .bind (succeeds_ask rfl (.bind (succeeds_granted hservice ?_)))
    rw [hs]
    exact hupdate
  obtain ⟨w', hrun, live, b, hconv⟩ := hall.program (by
    rintro w metrics ⟨live, b, h⟩
    exact ⟨live, b, ⟨h.stored, h.unchanged, h.found, h.listeners, h.backends, h.tags, h.shown, h.hash, h.remembered⟩⟩)
  exact ⟨w', live, b, hrun, hconv⟩

section Example

private def stall (uid : String) : Service where
  info := { (kiosk uid).info with
    annotations := some ⟨[(WellKnown.additionalResourceTags, " team = web ,")], by simp⟩ }
  spec := (kiosk uid).spec

private def bequeathed : World where
  cloud := (({} : MemoryCloud).ensure (stall "u1") []).2
  cluster := (({} : MemoryCluster).upsertNode { info := { name := some "n1" }, conditions := [⟨"Ready", "True"⟩] }
    |>.upsertNode { info := { name := some "n2" }, conditions := [⟨"Ready", "Unknown"⟩] }
    |>.upsertService (stall "u2")).2
  cache := (∅ : Cache).insert (.ofService (stall "u1")) ⟨stall "u1", some "u1", ⟨some [{ ip := some "10.0.0.1" }]⟩, none⟩

/-- A service comes to a balancer of its own although another one had its name. -/
theorem sync_converges_taken_over : ∃ svc w' live b,
    bequeathed.cluster.service? "default" "kiosk" = some svc ∧ bequeathed.cloud.balancers.values.length = 1 ∧
    (program {} ⟨"default", "kiosk"⟩).run (World.answer 0) bequeathed = (some (.ok ()), w') ∧
    Converged {} ⟨"default", "kiosk"⟩ svc (bequeathed.cluster.nodes.values.filter fun n => svc.Qualifies n) live b w' ∧
    b.listeners = [⟨80, "TCP", 30080⟩] ∧ b.backends = ["n1"] ∧
    (b.userManaged = false → b.tags.entries = [("team", "web")]) ∧
    (live.status.bind (·.loadBalancer)).bind (·.ingress) = some [{ ip := some b.address }] := by
  have hstale : ∀ entry, bequeathed.cache.get? ⟨"default", "kiosk"⟩ = some entry → entry.uid ≠ some "u2" := by
    have hentry : (bequeathed.cache.get? ⟨"default", "kiosk"⟩).map (·.uid) = some (some "u1") := by decide +kernel
    intro entry he
    have huid : entry.uid = some "u1" := by simpa [he] using hentry
    simp [huid]
  let svc : Service := { stall "u2" with info := { (stall "u2").info with resourceVersion := some "1" } }
  have hs : bequeathed.cluster.service? "default" "kiosk" = some svc := by decide +kernel
  have hcalm : bequeathed.Calm := ⟨rfl, rfl, rfl, rfl, rfl⟩
  have hascii : ∀ c ∈ "u2".toList, c.toNat < 128 := by simp
  have hcluster : bequeathed.cluster.Reachable := .upsertService _ (.upsertNode _ (.upsertNode _ (.new true)))
  have hcloud : bequeathed.cloud.Reachable := .ensure _ _ (.new _)
  have hgiven : svc.givenBalancerId? = none := by decide +kernel
  have hsync : ∃ w' live b, (program {} ⟨"default", "kiosk"⟩).run (World.answer 0) bequeathed = (some (.ok ()), w') ∧
      Converged {} ⟨"default", "kiosk"⟩ svc (bequeathed.cluster.nodes.values.filter fun n => svc.Qualifies n) live b w' :=
    sync_converges {} 0 hcluster hcloud hcalm hs (by decide +kernel) rfl hascii
      (fun id hid => by rw [hgiven] at hid; cases hid) fun entry he => .inl (hstale entry he)
  obtain ⟨w', live, b, hrun, hconv⟩ := hsync
  have hnames : ((bequeathed.cluster.nodes.values.filter fun n => svc.Qualifies n).map fun n =>
      n.info.name.getD (n.info.generateName.getD "")) = ["n1"] := by decide +kernel
  have htags : (Tags.parse " team = web ,").entries = [("team", "web")] := by decide +kernel
  exact ⟨svc, w', live, b, hs, by decide +kernel, hrun, hconv, hconv.listeners, hconv.backends.trans hnames,
    fun hown => (congrArg SortedMap.entries (hconv.tags hown)).trans htags, hconv.shown⟩

end Example

end Simulation
end ServiceBalancer
