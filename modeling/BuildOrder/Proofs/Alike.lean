import BuildOrder.Graph.Sort

/-! Two outcomes that agree up to given relations on errors and on values. -/
namespace BuildOrder

/-- Both succeed with related values, or both fail with related errors. -/
inductive Alike {ε ε' α α' : Type} (errors : ε → ε' → Prop) (values : α → α' → Prop) :
    Except ε α → Except ε' α' → Prop
  | error {e : ε} {e' : ε'} (h : errors e e') : Alike errors values (.error e) (.error e')
  | ok {a : α} {a' : α'} (h : values a a') : Alike errors values (.ok a) (.ok a')

instance {ε ε' α α' : Type} {errors : ε → ε' → Prop} {values : α → α' → Prop}
    [∀ e e', Decidable (errors e e')] [∀ a a', Decidable (values a a')] (x : Except ε α)
    (x' : Except ε' α') : Decidable (Alike errors values x x') :=
  match x, x' with
  | .error e, .error e' => decidable_of_iff (errors e e') ⟨.error, fun | .error h => h⟩
  | .ok a, .ok a' => decidable_of_iff (values a a') ⟨.ok, fun | .ok h => h⟩
  | .error _, .ok _ => .isFalse nofun
  | .ok _, .error _ => .isFalse nofun

theorem Alike.map {ε ε' α α' β β' : Type} {errors : ε → ε' → Prop} {values : α → α' → Prop}
    {results : β → β' → Prop} {x : Except ε α} {x' : Except ε' α'} {f : α → β} {f' : α' → β'}
    (h : Alike errors values x x') (hf : ∀ a a', values a a' → results (f a) (f' a')) :
    Alike errors results (x.map f) (x'.map f') := by
  cases h with
  | error h => exact .error h
  | ok h => exact .ok (hf _ _ h)

/-- Errors of the same kind with related listings. -/
inductive SortError.SameKind (listings : Listing → Listing → Prop) : SortError → SortError → Prop
  | noRoots {l l' : Listing} (h : listings l l') : SameKind listings (.noRoots l) (.noRoots l')
  | cycle {l l' : Listing} (h : listings l l') : SameKind listings (.cycle l) (.cycle l')

end BuildOrder
