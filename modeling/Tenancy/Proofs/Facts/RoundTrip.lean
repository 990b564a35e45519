import Tenancy.Facts.Parse
import Tenancy.Proofs.Wire.Records

/-!
# Reading back facts documents

Every record of a facts document is read back from what is written for it: each has its fields under
names of their own, and a field that is missing, empty or at its default is written, so that nothing
depends on what it falls back to. The literals of conditions are the only part that sets a limit:
they may be any JSON at all, and what is read back from them has whole numbers and ordered members.

Depths are those of the written value: a literal stands eight levels deep in a document.
-/

set_option autoImplicit false

namespace Tenancy

open Wire

/-! ### Literals -/

/-- The literals of a condition: its right-hand side, if that is one. -/
def Condition.literals (c : Condition) : List Value :=
  match c.operand with
  | .literal v => [v]
  | _ => []

/-- The literals of an operation. -/
def Operation.literals (o : Operation) : List Value := o.conditions.flatMap Condition.literals

/-- The literals of a handler. -/
def Handler.literals (h : Handler) : List Value := h.operations.flatMap Operation.literals

/-- The literals of a facts document. -/
def Facts.literals (f : Facts) : List Value := f.handlers.flatMap Handler.literals

/-! ### Declarations -/

theorem ForeignKey.codec_roundTrips (k : Nat) (key : ForeignKey) :
    codec.RoundTrips (k + 1) key :=
  .imap (.record
    (.cons (.required (.text k _))
    (.cons (.required (.text k _))
    (.cons (.optional (.text k) (fun _ => nofun) _) (.nil k)))) (by decide) true) rfl

theorem ScopeMark.codec_roundTrips (k : Nat) (mark : ScopeMark) :
    codec.RoundTrips (k + 1) mark := by
  cases mark with
  | tenantScoped column =>
    have hfields : (Fields.cons (.optional "column" .text) .nil).RoundTrips k (column, ()) :=
      .cons (.optional (.text k) (fun _ => nofun) column) (.nil k)
    exact .tagged_fields hfields (by decide) rfl rfl rfl
  | global => exact .tagged_bare rfl rfl
  | tenantRoot => exact .tagged_bare rfl rfl

theorem Declaration.codec_roundTrips (k : Nat) (d : Declaration) :
    codec.RoundTrips (k + 3) d :=
  .imap (.record
    (.cons (.required (.text _ _))
    (.cons (.required (.text _ _))
    (.cons (.many fun _ _ => .text _ _)
    (.cons (.many fun key _ => ForeignKey.codec_roundTrips k key)
    (.cons (.alsoNamed (.many fun mark _ => ScopeMark.codec_roundTrips k mark) _)
    (.cons (.optional (.text _) (fun _ => nofun) _)
    (.cons (.optional (.uint32 _) (fun _ => nofun) _) (.nil _)))))))) (by decide) true) rfl

/-! ### Handlers -/

theorem Location.codec_roundTrips (k : Nat) (l : Location) : codec.RoundTrips (k + 1) l :=
  .imap (.record
    (.cons (.required (.text k _))
    (.cons (.optional (.uint32 k) (fun _ => nofun) _)
    (.cons (.required (.text k _))
    (.cons (.sparse (.text k) (fun _ => nofun) _) (.nil k))))) (by decide) false) rfl

theorem ProviderKind.codec_roundTrips (k : Nat) (kind : ProviderKind) :
    codec.RoundTrips k kind :=
  .choice k (by decide) (by cases kind <;> decide)

theorem Dependency.codec_roundTrips (k : Nat) (d : Dependency) : codec.RoundTrips (k + 1) d :=
  .imap (.record
    (.cons (.required (.text k _))
    (.cons (.fallingBack (.text k _) _)
    (.cons (.optional (ProviderKind.codec_roundTrips k) (fun _ => nofun) _) (.nil k))))
    (by decide) true) rfl

theorem Binding.codec_roundTrips (k : Nat) (b : Binding) : codec.RoundTrips (k + 1) b :=
  .imap (.record
    (.cons (.required (.text k _))
    (.cons (.required (.text k _)) (.nil k))) (by decide) true) rfl

theorem OperationKind.codec_roundTrips (k : Nat) (kind : OperationKind) :
    codec.RoundTrips k kind :=
  .choice k (by decide) (by cases kind <;> decide)

theorem Operand.codec_roundTrips {k : Nat} {operand : Operand}
    (h : ∀ v, operand = .literal v → v.IsExact k ∧ v.IsOrdered) :
    codec.RoundTrips (k + 1) operand := by
  cases operand with
  | reference expr =>
    have hfields : (Fields.cons (.required "expr" .text) .nil).RoundTrips k (expr, ()) :=
      .cons (.required (.text k expr)) (.nil k)
    exact .tagged_fields hfields (by decide) rfl rfl rfl
  | literal v =>
    obtain ⟨hexact, hordered⟩ := h v rfl
    have hfields : (Fields.cons (.required "value" .literal) .nil).RoundTrips k (v, ()) :=
      .cons (.required (.literal hexact hordered)) (.nil k)
    exact .tagged_fields hfields (by decide) rfl rfl rfl
  | unknown => exact .tagged_bare rfl rfl

theorem Conjunction.codec_roundTrips (k : Nat) (c : Conjunction) : codec.RoundTrips k c :=
  .choice k (by decide) (by cases c <;> decide)

theorem Condition.codec_roundTrips {k : Nat} {c : Condition}
    (h : ∀ v ∈ c.literals, v.IsExact k ∧ v.IsOrdered) : codec.RoundTrips (k + 2) c := by
  have hoperand : Operand.codec.RoundTrips (k + 1) c.operand :=
    Operand.codec_roundTrips fun v hv => h v (by simp [literals, hv])
  exact .imap (.record
    (.cons (.required (.text _ _))
    (.cons (.fallingBack (.text _ _) _)
    (.cons (.required hoperand)
    (.cons (.fallingBack (Conjunction.codec_roundTrips _ _) _)
    (.cons (.optional (.text _) (fun _ => nofun) _) (.nil _)))))) (by decide) true) rfl

theorem FlowPath.codec_roundTrips (k : Nat) (p : FlowPath) : codec.RoundTrips (k + 1) p :=
  .imap (.record
    (.cons (.optional (.text k) (fun _ => nofun) _)
    (.cons (.fallingBack (.flag k _) _)
    (.cons (.required (.flag k _)) (.nil k)))) (by decide) true) rfl

theorem Flow.codec_roundTrips (k : Nat) (f : Flow) : codec.RoundTrips (k + 3) f :=
  .imap (.record
    (.cons (.many fun p _ => FlowPath.codec_roundTrips k p)
    (.cons (.fallingBack (.uint32 _ _) _) (.nil _))) (by decide) true) rfl

theorem Operation.codec_roundTrips {k : Nat} {o : Operation}
    (h : ∀ v ∈ o.literals, v.IsExact k ∧ v.IsOrdered) : codec.RoundTrips (k + 4) o := by
  have hconditions : ∀ c ∈ o.conditions, Condition.codec.RoundTrips (k + 2) c := fun c hc =>
    Condition.codec_roundTrips fun v hv => h v (List.mem_flatMap_of_mem hc hv)
  exact .imap (.record
    (.cons (.required (OperationKind.codec_roundTrips _ _))
    (.cons (.optional (.uint32 _) (fun _ => nofun) _)
    (.cons (.required (.list fun _ _ => .text _ _))
    (.cons (.many hconditions)
    (.cons (.alsoNamed (.fallingBack (Flow.codec_roundTrips k _) _) _) (.nil _))))))
    (by decide) true) rfl

theorem Handler.codec_roundTrips {k : Nat} {h : Handler}
    (hliterals : ∀ v ∈ h.literals, v.IsExact k ∧ v.IsOrdered) : codec.RoundTrips (k + 6) h := by
  have hoperations : ∀ o ∈ h.operations, Operation.codec.RoundTrips (k + 4) o := fun o ho =>
    Operation.codec_roundTrips fun v hv => hliterals v (List.mem_flatMap_of_mem ho hv)
  exact .imap (.record
    (.cons (.alsoNamed (.required (Location.codec_roundTrips (k + 4) _)) _)
    (.cons (.many fun d _ => Dependency.codec_roundTrips (k + 3) d)
    (.cons (.many fun b _ => Binding.codec_roundTrips (k + 3) b)
    (.cons (.many hoperations) (.nil _))))) (by decide) true) rfl

/-! ### Documents -/

namespace Facts

/-- A facts document is read back if its literals are. -/
theorem codec_roundTrips {k : Nat} {f : Facts}
    (h : ∀ v ∈ f.literals, v.IsExact k ∧ v.IsOrdered) : codec.RoundTrips (k + 8) f := by
  have hhandlers : ∀ handler ∈ f.handlers, Handler.codec.RoundTrips (k + 6) handler :=
    fun handler hhandler =>
      Handler.codec_roundTrips fun v hv => h v (List.mem_flatMap_of_mem hhandler hv)
  exact .imap (.record
    (.cons (.optional (.text _) (fun _ => nofun) _)
    (.cons (.many fun d _ => Declaration.codec_roundTrips (k + 3) d)
    (.cons (.many hhandlers) (.nil _)))) (by decide) false) rfl

/-- A path that asks for JSON is read as JSON. -/
theorem parse_of_json {path : String} (h : Path.extension? path = some "json") (text : String) :
    parse path text = codec.decode .json (Json.read text) := by
  have hform : formOf path = .json := by
    unfold formOf
    rw [h]
    rfl
  unfold parse
  rw [hform]

end Facts

end Tenancy
