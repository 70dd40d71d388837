import KeysetBundle.Config.Record
import KeysetBundle.Proofs.Json.Record

/-!
# A configuration reads back

The file of a configuration holds all of its settings.  A setting without a
value is not written, and a missing setting is read as one without a value, so
nothing is lost.

Main result.

- `ofText?_render`: what is read from the text of a configuration is the
  configuration.
-/

namespace KeysetBundle.Config

open Json (Printed)

/-- The members of the data value of a configuration. -/
def members (config : Config) : List (String × Json) :=
  [("levels", .ofTexts config.levels), ("dirSuffix", .ofText config.dirSuffix),
    ("langs", .ofTexts config.langs)] ++
  optionalMember "i18nFile" config.runtimeFile ++
  [("target", .ofText config.target), ("outputDir", .ofText config.outputDir)] ++
  optionalMember "base" config.base ++
  [("moduleName", .ofText config.moduleName)]

theorem toJson_eq (config : Config) : config.toJson = .ofMembers config.members := rfl

theorem sublist_optionalMember (name : String) (value : Option String) :
    ((optionalMember name value).map Prod.fst).Sublist [name] := by
  cases value with
  | none => exact List.nil_sublist _
  | some text => exact .refl _

/-- The members are settings in their order; one without a value is left out. -/
theorem sublist_members (config : Config) : (config.members.map Prod.fst).Sublist fieldNames := by
  have hfile := sublist_optionalMember "i18nFile" config.runtimeFile
  have hbase := sublist_optionalMember "base" config.base
  unfold members
  simp only [List.map_append]
  exact ((((List.Sublist.refl ["levels", "dirSuffix", "langs"]).append hfile).append
    (.refl ["target", "outputDir"])).append hbase).append (.refl ["moduleName"])

theorem lookup_members (config : Config) :
    (fieldNames.map fun field => config.members.lookup field) =
      [some (.ofTexts config.levels), some (.ofText config.dirSuffix),
        some (.ofTexts config.langs), config.runtimeFile.map .ofText,
        some (.ofText config.target), some (.ofText config.outputDir),
        config.base.map .ofText, some (.ofText config.moduleName)] := by
  unfold members
  cases config.runtimeFile <;> cases config.base <;> rfl

theorem optional_read (value : Option String) :
    Json.fieldOr? none Json.optionalText? (value.map .ofText) = some value := by
  cases value with
  | none => rfl
  | some text => exact congrArg (Option.map some) (Json.text?_ofText text)

theorem ofJson?_toJson (config : Config) : ofJson? config.toJson = some config := by
  have hnodup : (config.members.map Prod.fst).Nodup :=
    List.Nodup.sublist config.sublist_members (by decide)
  have hrecord := Json.record?_of_known hnodup fun _ hname => config.sublist_members.subset hname
  rw [lookup_members] at hrecord
  unfold ofJson?
  rw [toJson_eq, hrecord]
  refine bind_eq_some.2 ⟨_, rfl, ?_⟩
  refine bind_eq_some.2 ⟨_, Json.texts?_ofTexts config.levels, ?_⟩
  refine bind_eq_some.2 ⟨_, Json.text?_ofText config.dirSuffix, ?_⟩
  refine bind_eq_some.2 ⟨_, Json.texts?_ofTexts config.langs, ?_⟩
  refine bind_eq_some.2 ⟨_, optional_read config.runtimeFile, ?_⟩
  refine bind_eq_some.2 ⟨_, Json.text?_ofText config.target, ?_⟩
  refine bind_eq_some.2 ⟨_, Json.text?_ofText config.outputDir, ?_⟩
  refine bind_eq_some.2 ⟨_, optional_read config.base, ?_⟩
  exact bind_eq_some.2 ⟨_, Json.text?_ofText config.moduleName, rfl⟩

theorem printed_toJson (config : Config) : Printed config.toJson := by
  have htexts : ∀ values : List String, Printed (.ofTexts values) := by
    intro values
    refine .array fun item hitem => ?_
    obtain ⟨text, -, rfl⟩ := List.mem_map.1 hitem
    exact .text text
  have hoptional : ∀ name (value : Option String), ∀ member ∈ optionalMember name value,
      Printed member.2 := by
    intro name value member hmember
    cases value with
    | none => nomatch hmember
    | some text =>
        rw [List.mem_singleton.1 hmember]
        exact .text text
  refine .object fun member hmember => ?_
  simp only [List.mem_append, List.mem_cons, List.not_mem_nil, or_false] at hmember
  rcases hmember with (((( rfl | rfl | rfl) | h) | rfl | rfl) | h) | rfl
  · exact htexts _
  · exact .text _
  · exact htexts _
  · exact hoptional _ _ _ h
  · exact .text _
  · exact .text _
  · exact hoptional _ _ _ h
  · exact .text _

/-- **What is read from the text of a configuration is the configuration.** -/
theorem ofText?_render (config : Config) : ofText? config.render = some config := by
  unfold ofText? render
  rw [Json.parse_pretty config.printed_toJson, Option.bind_some, ofJson?_toJson]

end KeysetBundle.Config
