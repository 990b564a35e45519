import Tenancy.Proofs.Facts.RoundTrip
import Tenancy.Render.Output

/-!
# Reading back reports

The JSON text of a report is read as the same report. What is left out of it when it is written
(parts of a finding that are not known, warnings when there are none, counts of what does not occur)
is exactly what is filled in when it is read.

Counters are numbers of 64 bits. The model keeps them without a limit, so `Summary.InRange` says
that they are in range.
-/

set_option autoImplicit false

namespace Tenancy

open Wire

theorem Classification.codec_roundTrips (k : Nat) (c : Classification) : codec.RoundTrips k c :=
  .choice k (by decide) (by cases c <;> decide)

theorem ViolationKind.codec_roundTrips (k : Nat) (kind : ViolationKind) :
    codec.RoundTrips k kind :=
  .choice k (by decide) (by cases kind <;> decide)

theorem Severity.codec_roundTrips (k : Nat) (s : Severity) : codec.RoundTrips k s :=
  .choice k (by decide) (by cases s <;> decide)

theorem Finding.codec_roundTrips (k : Nat) (f : Finding) : codec.RoundTrips (k + 2) f :=
  .imap (.record
    (.cons (.sparse (.text _) (fun _ => nofun) _)
    (.cons (.required (Location.codec_roundTrips k _))
    (.cons (.required (Classification.codec_roundTrips _ _))
    (.cons (.sparse (ViolationKind.codec_roundTrips _) (fun _ => nofun) _)
    (.cons (.sparse (.text _) (fun _ => nofun) _)
    (.cons (.sparse (Severity.codec_roundTrips _) (fun _ => nofun) _)
    (.cons (.required (.list fun _ _ => .text k _))
    (.cons (.sparse (OperationKind.codec_roundTrips _) (fun _ => nofun) _)
    (.cons (.required (.text _ _))
    (.cons (.sparse (.text _) (fun _ => nofun) _)
    (.cons (.sparse (.text _) (fun _ => nofun) _)
    (.cons (.fallingBack (.flag _ _) _)
    (.cons (.sparse (.text _) (fun _ => nofun) _) (.nil _)))))))))))))) (by decide) false) rfl

/-- Every counter of the summary is a number of 64 bits. -/
structure Summary.InRange (s : Summary) : Prop where
  total : s.total < UInt64.size
  byClassification : ∀ c, ∀ n ∈ s.byClassification c, n < UInt64.size
  byViolationKind : ∀ k, ∀ n ∈ s.byViolationKind k, n < UInt64.size
  bySeverity : ∀ severity, ∀ n ∈ s.bySeverity severity, n < UInt64.size
  suppressed : s.suppressed < UInt64.size
  analyzerErrors : s.analyzerErrors < UInt64.size

theorem counter_roundTrips (k : Nat) {n : Nat} (h : n < UInt64.size) : counter.RoundTrips k n :=
  .natBelow k (le_refl _) h

theorem Summary.codec_roundTrips (k : Nat) {s : Summary} (h : s.InRange) :
    codec.RoundTrips (k + 2) s := by
  have hclassification : ∀ c, ∀ n ∈ s.byClassification c, counter.RoundTrips k n := fun c n hn =>
    counter_roundTrips k (h.byClassification c n hn)
  have hkind : ∀ kind, ∀ n ∈ s.byViolationKind kind, counter.RoundTrips k n := fun kind n hn =>
    counter_roundTrips k (h.byViolationKind kind n hn)
  have hseverity : ∀ severity, ∀ n ∈ s.bySeverity severity, counter.RoundTrips k n :=
    fun severity n hn => counter_roundTrips k (h.bySeverity severity n hn)
  exact .imap (.record
    (.cons (.required (counter_roundTrips _ h.total))
    (.cons (.required (.tableOf (by decide) (fun c => by cases c <;> decide) hclassification))
    (.cons (.required (.tableOf (by decide) (fun kind => by cases kind <;> decide) hkind))
    (.cons (.required (.tableOf (by decide) (fun severity => by cases severity <;> decide)
      hseverity))
    (.cons (.required (counter_roundTrips _ h.suppressed))
    (.cons (.required (counter_roundTrips _ h.analyzerErrors)) (.nil _)))))))
    (by decide) false) rfl

namespace Report

theorem codec_roundTrips (k : Nat) {r : Report} (h : r.summary.InRange) :
    codec.RoundTrips (k + 4) r := by
  have hfindings : ∀ f ∈ r.findings, Finding.codec.RoundTrips (k + 2) f := fun f _ =>
    Finding.codec_roundTrips k f
  -- Warnings are left out when there are none, which is what they fall back to.
  have hwarnings : Field.RoundTrips { Field.many "warnings" Codec.text with omits := List.isEmpty }
      (k + 3) r.warnings :=
    ⟨.list fun _ _ => .text _ _, fun hempty => congrArg some (List.isEmpty_iff.mp hempty).symm⟩
  exact .imap (.record
    (.cons (.required (.text _ _))
    (.cons (.required (.text _ _))
    (.cons (.required (.list hfindings))
    (.cons (.required (Summary.codec_roundTrips (k + 1) h))
    (.cons hwarnings (.nil _)))))) (by decide) false) rfl

/-- What is written for a report as JSON, line break included, is read as that report. -/
theorem decode_render (r : Report) (h : r.summary.InRange) (look : Appearance) (capable : Bool) :
    codec.decode .json (Json.read (r.render .json look capable)) = .ok r := by
  have hrender : r.render .json look capable
      = String.ofList ((codec.write r).spaced .lines 0 ++ ['\n']) := by
    rw [String.ofList_append, ← Value.pretty_eq_spaced]
    show String.join [r.toJson ++ "\n"] = r.toJson ++ "\n"
    rw [String.join_cons, String.join_nil, String.append_empty]
  rw [hrender]
  exact (codec_roundTrips 0 h).decode_json (by decide) .lines (List.forall_mem_singleton.mpr rfl)

/-- A report with the largest counter, with a finding of which little is known and one of which
everything is, and with texts that have to be escaped is read back. -/
theorem decode_render_sample :
    ∃ r : Report,
      r.summary.total = 18446744073709551615 ∧
      r.summary.byClassification .violation = some 18446744073709551615 ∧
      r.findings.map Finding.accessPoint = [none, some "a \"b\"\\\u0000\n😀"] ∧
      codec.decode .json (Json.read (r.render .json .default true)) = .ok r := by
  let unclear := Finding.unknown (.ofFile "a\tb.py") "" "E002"
  let clear : Finding :=
    { accessPoint := some "a \"b\"\\\u0000\n😀"
      location := ⟨"routes.py", some 4294967295, "list", some "/"⟩
      classification := .violation
      kind := some .missingDependency
      ruleId := some "R1"
      severity := some .critical
      entities := ["User", ""]
      operation := some .delete
      rationale := "why"
      suggestedFix := some "how"
      errorCode := some ""
      suppressed := true
      suppressionReason := some "known" }
  let summary : Summary :=
    { total := 18446744073709551615
      byClassification c := if c = .violation then some 18446744073709551615 else none
      byViolationKind _ := none
      bySeverity _ := some 0
      suppressed := 1
      analyzerErrors := 0 }
  have hrange : summary.InRange :=
    { total := by decide
      byClassification := by
        intro c n hn
        cases c with
        | violation =>
          cases hn
          decide
        | _ => cases hn
      byViolationKind := fun _ _ hn => absurd hn (by simp [summary])
      bySeverity := by
        rintro _ _ ⟨⟩
        decide
      suppressed := by decide
      analyzerErrors := by decide }
  let r : Report := ⟨"tenantguard", "0.1.0", [unclear, clear], summary, []⟩
  exact ⟨r, rfl, rfl, rfl, decode_render r hrange .default true⟩

end Report

end Tenancy
