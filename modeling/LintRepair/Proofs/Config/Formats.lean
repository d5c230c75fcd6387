import LintRepair.Config.Loading
import LintRepair.Proofs.Config.Writing

/-! The three formats of configuration files. Documents of one configuration are read alike whatever
their formats and the orders of their members. -/

namespace LintRepair.Config

/-- Documents of the same contents, one in each format; each has its own order. -/
structure Documents (c : Contents) (json toml yaml : String) : Prop where
  json : ∃ sheet, Arranges c sheet ∧ sheet.WritesJson json.toList
  toml : ∃ sheet, Arranges c sheet ∧ sheet.WritesToml toml.toList
  yaml : ∃ sheet, Arranges c sheet ∧ sheet.WritesYaml yaml.toList

/-- Under names for their formats, all documents of the same contents give the same configuration or the
same fault. Texts that print in ASCII can be written in every format, in each order that it allows. -/
theorem formats_agree (c : Contents) :
    (∀ {json toml yaml : String}, Documents c json toml yaml → ∀ {jsonPath tomlPath yamlPath : String},
      Files.Path.extension? jsonPath = some "json" → Files.Path.extension? tomlPath = some "toml" →
      Files.Path.extension? yamlPath ∈ [some "yaml", some "yml"] →
        parse jsonPath json = validated c.config ∧ parse tomlPath toml = validated c.config ∧
          parse yamlPath yaml = validated c.config) ∧
      (c.IsPrintable → ∀ sheet, Arranges c sheet → sheet.WritesJson sheet.json.toList ∧
        (sheet.TablesLast → sheet.WritesToml sheet.toml.toList) ∧
          sheet.WritesYaml sheet.yaml.toList) := by
  refine ⟨fun hDocuments jsonPath tomlPath yamlPath hJson hToml hYaml => ?_,
    fun hPrint sheet hArranges => ?_⟩
  · obtain ⟨⟨sj, hj, hWritesJson⟩, ⟨st, ht, hWritesToml⟩, ⟨sy, hy, hWritesYaml⟩⟩ := hDocuments
    have hFormatJson : Format.ofPath jsonPath = .json := by simp [Format.ofPath, hJson]
    have hFormatToml : Format.ofPath tomlPath = .toml := by simp [Format.ofPath, hToml]
    have hFormatYaml : Format.ofPath yamlPath = .yaml := by
      simp only [List.mem_cons, List.not_mem_nil, or_false] at hYaml
      rcases hYaml with hYaml | hYaml <;> simp [Format.ofPath, hYaml]
    refine ⟨?_, ?_, ?_⟩
    · rw [parse, decode, hFormatJson]
      simp only [finish_of_writesJson hj hWritesJson]
      rfl
    · rw [parse, decode, hFormatToml]
      simp only [parseConfig_of_writesToml ht hWritesToml]
      rfl
    · rw [parse, decode, hFormatYaml]
      simp only [parseConfig_of_writesYaml hy hWritesYaml]
      rfl
  · obtain ⟨hSome, hMembers⟩ := hArranges.isWritable hPrint
    exact ⟨sheet.writesJson_json, fun hLast => Sheet.writesToml_toml hLast hMembers,
      Sheet.writesYaml_yaml hSome hMembers⟩

/-- Contents without a limit, with one target whose check has quotes and a backslash in it. -/
def sampleContents : Contents :=
  ⟨none, some true, [⟨"src/**/*.rs", .rust, "grep \"a\\b\"", "cargo fix"⟩]⟩

/-- The members of the sample as tables allow it. -/
def sampleSheet : Sheet := sampleContents.members (sampleContents.targets.map row)

/-- The members of the sample the other way round, and the texts of the target too. -/
def sampleReverse : Sheet :=
  (sampleContents.members (sampleContents.targets.map fun t => (row t).reverse)).reverse

theorem arranges_sampleSheet : Arranges sampleContents sampleSheet :=
  .arranged (List.forall₂_map_left_iff.mpr (List.forall₂_same.mpr fun _ _ => .rfl)) .rfl

/-- Turning members and texts round leaves what they say. -/
theorem arranges_sampleReverse : Arranges sampleContents sampleReverse :=
  .arranged (List.forall₂_map_left_iff.mpr (List.forall₂_same.mpr fun t _ => (row t).reverse_perm))
    (List.reverse_perm _)

theorem isPrintable_sampleContents : sampleContents.IsPrintable := by decide +kernel

/-- Three documents of one configuration, each in an order of its own. -/
theorem formats_agree_sample :
    parse "lint.json" sampleReverse.json = .ok ⟨3, true, sampleContents.targets⟩ ∧
      parse "lint.toml" sampleSheet.toml = .ok ⟨3, true, sampleContents.targets⟩ ∧
        parse "lint.yml" sampleReverse.yaml = .ok ⟨3, true, sampleContents.targets⟩ := by
  obtain ⟨hRead, hWrite⟩ := formats_agree sampleContents
  obtain ⟨hJson, -, hYaml⟩ := hWrite isPrintable_sampleContents sampleReverse arranges_sampleReverse
  obtain ⟨-, hToml, -⟩ := hWrite isPrintable_sampleContents sampleSheet arranges_sampleSheet
  have hLast : sampleSheet.TablesLast := by
    simp [Sheet.TablesLast, sampleSheet, Contents.members, sampleContents, Datum.hasTables]
  have hFault : sampleContents.config.fault? = none := by decide +kernel
  have hValid : validated sampleContents.config = .ok ⟨3, true, sampleContents.targets⟩ := by
    rw [validated, hFault]
    rfl
  rw [← hValid]
  exact hRead ⟨⟨_, arranges_sampleReverse, hJson⟩, ⟨_, arranges_sampleSheet, hToml hLast⟩,
    ⟨_, arranges_sampleReverse, hYaml⟩⟩ (by decide +kernel) (by decide +kernel) (by decide +kernel)

end LintRepair.Config
