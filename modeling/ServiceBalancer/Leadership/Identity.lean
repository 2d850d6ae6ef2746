/-! The name under which a replica claims leadership. -/
namespace ServiceBalancer

def nameless : String := "service-lb-controller"

/-- The identity of a replica: the host name it was given, unless that is empty, else the one of
the system. -/
def replicaIdentity (given system : Option String) : String :=
  ((given.filter (fun name => !name.isEmpty)).or system).getD nameless

end ServiceBalancer
