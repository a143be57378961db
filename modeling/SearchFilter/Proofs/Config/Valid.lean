import SearchFilter.Config
/-!
# Valid configurations

What was read as a configuration has passed all checks, and so names a level.
-/
namespace SearchFilter.Config

theorem validate_eq_ok {config : Config} :
    config.validate = .ok () ↔
      ¬ config.matchAllField.isEmpty ∧ config.pathSeparator.toList.length = 1 ∧
        ∃ threshold, config.severity = .ok threshold := by
  unfold validate
  by_cases hfield : config.matchAllField.isEmpty
  · simp [hfield, bind, Except.bind]
  · by_cases hseparator : config.pathSeparator.toList.length = 1
    · cases config.severity <;> simp [hfield, hseparator, bind, Except.bind]
    · simp [hfield, hseparator, bind, Except.bind]

theorem parse_of_ofJson {text : String} {config : Config}
    (h : ofJson text.toList = .ok config) :
    parse text = (config.validate.mapError .invalid).bind fun _ => .ok config := by
  unfold parse
  rw [h]
  rfl

theorem parse_eq_ok {text : String} {config : Config} :
    parse text = .ok config ↔ ofJson text.toList = .ok config ∧ config.validate = .ok () := by
  constructor
  · intro h
    cases hread : ofJson text.toList with
    | error fault =>
      unfold parse at h
      rw [hread] at h
      cases h
    | ok read =>
      rw [parse_of_ofJson hread] at h
      cases hvalid : read.validate with
      | error cause =>
        rw [hvalid] at h
        cases h
      | ok checked =>
        rw [hvalid] at h
        cases h
        exact ⟨rfl, hvalid⟩
  · intro h
    obtain ⟨hread, hvalid⟩ := h
    rw [parse_of_ofJson hread, hvalid]
    rfl

theorem exists_severity_of_parse {text : String} {config : Config}
    (h : parse text = .ok config) : ∃ threshold, config.severity = .ok threshold := by
  obtain ⟨-, hvalid⟩ := parse_eq_ok.mp h
  exact (validate_eq_ok.mp hvalid).2.2

end SearchFilter.Config
