import ServiceBalancer.Proofs.Data.SortedMap
import ServiceBalancer.Routing

/-! What the router decides upon a change: which keys are to be synced, and what else may come of it. -/
namespace ServiceBalancer.Routing

/-- A change of a node concerns the remembered services that want a balancer. -/
theorem mem_servedKeys {cache : Cache} {key : ServiceKey} :
    key ∈ servedKeys cache ↔ ∃ entry, cache.get? key = some entry ∧ isServed entry.service = true := by
  simp only [servedKeys, Cache.services, List.mem_map, List.mem_filter, SortedMap.get?_eq_some]
  constructor
  · rintro ⟨_, ⟨⟨⟨k, entry⟩, hm, rfl⟩, hs⟩, rfl⟩
    exact ⟨entry, hm, hs⟩
  · rintro ⟨entry, hm, hs⟩
    exact ⟨_, ⟨⟨_, hm, rfl⟩, hs⟩, rfl⟩

theorem mem_onNode {cache : Cache} {δ : Delta Node} {r : Reaction} (h : r ∈ onNode cache δ) :
    ∃ key entry, r = .enqueue key ∧ cache.get? key = some entry ∧ isServed entry.service = true := by
  unfold onNode at h
  split at h
  · obtain ⟨key, hk, rfl⟩ := List.mem_map.mp h
    obtain ⟨entry, he⟩ := mem_servedKeys.mp hk
    exact ⟨key, entry, rfl, he⟩
  · cases h

theorem mem_enqueue {svc : Service} {r : Reaction} (h : r ∈ enqueue svc) : r = .enqueue (.ofService svc) := by
  unfold enqueue at h
  split at h
  · exact List.mem_singleton.mp h
  · cases h

/-- A service that is new or changed is to be synced, if anything, and the change of its type recorded. -/
theorem mem_onService {δ : Delta Service} {svc : Service} (hδ : δ = .added svc ∨ ∃ old, δ = .updated old svc)
    {r : Reaction} (h : r ∈ onService δ) : r = .enqueue (.ofService svc) ∨ ∃ e, r = .record e := by
  rcases hδ with rfl | ⟨old, rfl⟩
  · simp only [onService] at h
    split at h
    · exact .inl (mem_enqueue h)
    · cases h
  · simp only [onService] at h
    split at h
    · cases h
    · exact .inl (mem_enqueue h)
    · rcases List.mem_append.mp h with h | h
      · split at h
        · exact .inr ⟨_, List.mem_singleton.mp h⟩
        · cases h
      · exact .inl (mem_enqueue h)

/-- A deleted service that had a balancer is kept, and to be synced. -/
theorem onService_deleted {svc : Service} (hb : svc.hasBalancerType = true) (hu : svc.isUnclaimed = true) :
    onService (.deleted svc) = [.keepDeleted svc, .enqueue (.ofService svc)] := by
  simp [onService, Service.isCandidate, hb, hu]

end ServiceBalancer.Routing
