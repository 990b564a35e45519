import Tenancy.Proofs.Facts.RoundTrip
import Tenancy.Sample
import Tenancy.Settings.Parse

/-!
# Reading back settings

Settings are read back from what is written for them without any condition: no setting is left out
when it is written, so a default never takes the place of a value, and the mapping of providers is
written in the order in which it is kept.

`parse_toJson` is the statement for both kinds of input, settings and facts documents.
-/

set_option autoImplicit false

namespace Tenancy

open Wire

theorem UnresolvedScope.codec_roundTrips (k : Nat) (scope : UnresolvedScope) :
    codec.RoundTrips k scope :=
  .choice k (by decide) (by cases scope <;> decide)

theorem SchemaSettings.codec_roundTrips (k : Nat) (s : SchemaSettings) :
    codec.RoundTrips (k + 2) s :=
  .imap (.record
    (.cons (.fallingBack (.list fun _ _ => .text k _) _)
    (.cons (.many fun _ _ => .text k _)
    (.cons (.many fun _ _ => .text k _)
    (.cons (.many fun _ _ => .text k _)
    (.cons (.fallingBack (.flag _ _) _)
    (.cons (.fallingBack (UnresolvedScope.codec_roundTrips _ _) _) (.nil _)))))))
    (by decide) false) rfl

theorem ProviderSettings.codec_roundTrips (k : Nat) (s : ProviderSettings) :
    codec.RoundTrips (k + 2) s :=
  .imap (.record
    (.cons (.many fun _ _ => .text k _)
    (.cons (.many fun _ _ => .text k _)
    (.cons (.fallingBack (.table fun e _ => ProviderKind.codec_roundTrips k e.2) _) (.nil _))))
    (by decide) false) rfl

theorem ExemptionSettings.codec_roundTrips (k : Nat) (s : ExemptionSettings) :
    codec.RoundTrips (k + 2) s :=
  .imap (.record (.cons (.many fun _ _ => .text k _) (.nil _)) (by decide) false) rfl

theorem SuppressionEntry.codec_roundTrips (k : Nat) (e : SuppressionEntry) :
    codec.RoundTrips (k + 1) e :=
  .imap (.record
    (.cons (.required (.text k _))
    (.cons (.required (.text k _))
    (.cons (.optional (.text k) (fun _ => nofun) _) (.nil k)))) (by decide) false) rfl

theorem AnalysisSettings.codec_roundTrips (k : Nat) (s : AnalysisSettings) :
    codec.RoundTrips (k + 2) s :=
  .imap (.record
    (.cons (.fallingBack (.flag _ _) _)
    (.cons (.fallingBack (.flag _ _) _)
    (.cons (.many fun _ _ => .text k _)
    (.cons (.optional (.uint64 _) (fun _ => nofun) _) (.nil _))))) (by decide) false) rfl

theorem ScanLimits.codec_roundTrips (k : Nat) (l : ScanLimits) : codec.RoundTrips (k + 1) l :=
  .imap (.record
    (.cons (.fallingBack (.uint64 k _) _)
    (.cons (.fallingBack (.uint32 k _) _)
    (.cons (.fallingBack (.uint64 k _) _) (.nil k)))) (by decide) false) rfl

theorem OutputSettings.codec_roundTrips (k : Nat) (s : OutputSettings) :
    codec.RoundTrips (k + 1) s :=
  .imap (.record (.cons (.optional (.text k) (fun _ => nofun) _) (.nil k)) (by decide) false) rfl

theorem Settings.codec_roundTrips (k : Nat) (s : Settings) : codec.RoundTrips (k + 3) s :=
  .imap (.record
    (.cons (.fallingBack (SchemaSettings.codec_roundTrips k _) _)
    (.cons (.fallingBack (ProviderSettings.codec_roundTrips k _) _)
    (.cons (.fallingBack (ExemptionSettings.codec_roundTrips k _) _)
    (.cons (.many fun e _ => SuppressionEntry.codec_roundTrips k e)
    (.cons (.fallingBack (AnalysisSettings.codec_roundTrips k _) _)
    (.cons (.fallingBack (ScanLimits.codec_roundTrips _ _) _)
    (.cons (.fallingBack (OutputSettings.codec_roundTrips _ _) _) (.nil _))))))))
    (by decide) false) rfl

/-- Inputs are read back from their JSON text, over lines or in one line. A facts document may hold
any literals whose numbers are whole and fit into 64 bits and that are nested at most 64 levels
deep. A literal is kept as a table from names to values, so its members are in order. -/
theorem parse_toJson :
    (∀ (facts : Facts) (path : String), Path.extension? path = some "json" →
      (∀ v ∈ facts.literals, v.IsExact 64 ∧ v.IsOrdered) →
      Facts.parse path facts.toJson = .ok facts
        ∧ Facts.parse path (Facts.codec.write facts).compact = .ok facts)
    ∧ ∀ s : Settings, Settings.parseJson s.toJson = .ok s
        ∧ Settings.parseJson (Settings.codec.write s).compact = .ok s := by
  refine ⟨fun facts path hpath hliterals => ?_, fun s => ?_⟩
  · have hfacts := Facts.codec_roundTrips hliterals
    have hdepth : 64 + 8 ≤ Dialect.json.room := by decide
    rw [Facts.parse_of_json hpath, Facts.parse_of_json hpath]
    exact ⟨hfacts.decode_pretty hdepth, hfacts.decode_compact hdepth⟩
  · have hsettings := Settings.codec_roundTrips 0 s
    have hdepth : 0 + 3 ≤ Dialect.json.room := by decide
    exact ⟨hsettings.decode_pretty hdepth, hsettings.decode_compact hdepth⟩

/-- A handler of the sample application compares a column with a literal that holds the largest and
the least whole number and a member without a value. The document with it is read back, and so are
the settings of the application. -/
theorem parse_toJson_sample :
    ∃ (facts : Facts) (v : Value),
      v = .record [("least", .list [.number (.whole (-9223372036854775808))]),
        ("most", .number (.whole 18446744073709551615)), ("none", .null)] ∧
      v ∈ facts.literals ∧ Facts.parse "facts.json" facts.toJson = .ok facts ∧
      Settings.parseJson Sample.settings.toJson = .ok Sample.settings := by
  let v : Value := .record [("least", .list [.number (.whole (-9223372036854775808))]),
    ("most", .number (.whole 18446744073709551615)), ("none", .null)]
  let o := (Operation.on .read ["FeatureFlag"]).filterLiteral "key" v
  let facts : Facts :=
    ⟨some "routes.py", Sample.schema, [(Sample.handler 1 "flags" "/flags").addOperation o]⟩
  have hexact : v.IsExact 64 := by
    refine .record (List.forall_mem_cons.mpr ⟨.list fun item hitem => ?_, ?_⟩)
    · rw [List.mem_singleton.mp hitem]
      exact .number (by decide)
    · refine List.forall_mem_cons.mpr ⟨.number (by decide), fun m hm => ?_⟩
      rw [List.mem_singleton.mp hm]
      exact .null
  have hordered : v.IsOrdered := by
    refine .record (by decide) (List.forall_mem_cons.mpr ⟨.list fun item hitem => ?_, ?_⟩)
    · rw [List.mem_singleton.mp hitem]
      exact .number _
    · refine List.forall_mem_cons.mpr ⟨.number _, fun m hm => ?_⟩
      rw [List.mem_singleton.mp hm]
      exact .null
  have hliterals : facts.literals = [v] := rfl
  have hread := parse_toJson.1 facts "facts.json" (by decide) fun w hw => by
    rw [hliterals] at hw
    rw [List.mem_singleton.mp hw]
    exact ⟨hexact, hordered⟩
  exact ⟨facts, v, rfl, hliterals ▸ List.mem_cons_self, hread.1, (parse_toJson.2 _).1⟩

end Tenancy
