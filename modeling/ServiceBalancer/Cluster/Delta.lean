/-! Changes of watched objects, as they are told to those who care. -/
namespace ServiceBalancer

inductive Delta (α : Type) where
  | added (o : α)
  | updated (old new : α)
  | deleted (o : α)
  deriving DecidableEq, Repr

end ServiceBalancer
