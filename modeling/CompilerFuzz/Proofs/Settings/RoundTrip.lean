/-
  CompilerFuzz.Proofs.Settings.RoundTrip

  Settings are read back from their text. The text is a document of plain tables, so it builds
  the table that its sections describe (`Toml.read?_write`, `Draft.follow_section`), and each
  field finds its own value there: a pass that is not set is missing and takes its default, and
  a policy with data stands in a table inside the one of the campaign.
-/
import CompilerFuzz.Proofs.Span.Lossless
import CompilerFuzz.Proofs.Toml.Building
import CompilerFuzz.Settings.OfTable
import CompilerFuzz.Settings.Written

namespace CompilerFuzz

open CompilerFuzz.Campaign CompilerFuzz.Toml

/-! ## The sections are plain -/

theorem ToolchainSettings.plain_written (t : ToolchainSettings) : t.written.Plain where
  named := List.cons_ne_nil _ _
  names_bare := by
    show ∀ name ∈ ["toolchain"], Bare name
    decide +kernel
  short := show 1 < maxPathSize by decide
  keys_bare := by
    show ∀ key ∈ ["generator", "generator_args", "compiler", "optimizer", "include_dirs",
      "compiler_flags", "normalization_pass"], Bare key
    decide +kernel
  keys_nodup := by
    show List.Nodup ["generator", "generator_args", "compiler", "optimizer", "include_dirs",
      "compiler_flags", "normalization_pass"]
    decide +kernel
  in_range := by
    simp [ToolchainSettings.written, Entry.InRange]

theorem WorkspaceSettings.plain_written (w : WorkspaceSettings) : w.written.Plain where
  named := List.cons_ne_nil _ _
  names_bare := by
    show ∀ name ∈ ["workspace"], Bare name
    decide +kernel
  short := show 1 < maxPathSize by decide
  keys_bare := by
    show ∀ key ∈ ["dir", "source_name", "ir_name", "binary_name"], Bare key
    decide +kernel
  keys_nodup := by
    show List.Nodup ["dir", "source_name", "ir_name", "binary_name"]
    decide +kernel
  in_range := by
    simp [WorkspaceSettings.written, Entry.InRange]

/-- The keys of the campaign's table: those of a pass and of a policy may be missing. -/
theorem CampaignSettings.sublist_keys (c : CampaignSettings) :
    (c.written.entries.map Prod.fst).Sublist
      ["time_budget", "opt_level", "single_pass", "on_generator_failure"] := by
  obtain ⟨timeBudget, level, singlePass, policy⟩ := c
  cases singlePass <;> cases policy <;> simp [CampaignSettings.written, policyEntries]

theorem CampaignSettings.plain_written (c : CampaignSettings) : c.written.Plain where
  named := List.cons_ne_nil _ _
  names_bare := by
    show ∀ name ∈ ["campaign"], Bare name
    decide +kernel
  short := show 1 < maxPathSize by decide
  keys_bare := by
    have hbare : ∀ key ∈ ["time_budget", "opt_level", "single_pass", "on_generator_failure"],
        Bare key := by
      decide +kernel
    exact fun key hkey => hbare key (c.sublist_keys.subset hkey)
  keys_nodup := c.sublist_keys.nodup (by decide +kernel)
  in_range := by
    have hlevel : c.level.toNat ≤ maxInteger := by
      have hlt := c.level.toNat_lt
      unfold maxInteger
      omega
    refine List.forall_mem_append.2 ⟨List.forall_mem_append.2 ⟨?_, ?_⟩, ?_⟩
    · simp [Entry.InRange, hlevel]
    · simp [Entry.InRange]
    · cases c.policy <;> simp [policyEntries, Entry.InRange]

/-- The table of a policy with data. -/
def retrySection (n : UInt32) : Section :=
  ⟨["campaign", "on_generator_failure", "retry"], [("attempts", .number n.toNat)]⟩

theorem plain_retrySection (n : UInt32) : (retrySection n).Plain where
  named := List.cons_ne_nil _ _
  names_bare := by
    show ∀ name ∈ ["campaign", "on_generator_failure", "retry"], Bare name
    decide +kernel
  short := show 3 < maxPathSize by decide
  keys_bare := by
    show ∀ key ∈ ["attempts"], Bare key
    decide +kernel
  keys_nodup := by
    show List.Nodup ["attempts"]
    decide
  in_range := by
    have hn : n.toNat ≤ maxInteger := by
      have hlt := n.toNat_lt
      unfold maxInteger
      omega
    intro e he
    rw [List.mem_singleton.1 he]
    exact hn

theorem Settings.plain_sections (s : Settings) : ∀ t ∈ s.sections, t.Plain := by
  refine List.forall_mem_append.2 ⟨?_, ?_⟩
  · simp [s.toolchain.plain_written, s.workspace.plain_written, s.campaign.plain_written]
  · cases s.campaign.policy with
    | abort => exact fun t ht => absurd ht List.not_mem_nil
    | skip => exact fun t ht => absurd ht List.not_mem_nil
    | retry n =>
      intro t ht
      rw [List.mem_singleton.1 ht]
      exact plain_retrySection n

/-! ## The table of a document -/

/-- The value that a policy is read from. -/
def policyValue : Policy → Value
  | .abort => .string "abort"
  | .skip => .string "skip"
  | .retry n => .table [("retry", .table [("attempts", .integer n.toNat)])]

/-- The entry of a policy with data in the table of the campaign. -/
def policyTable : Policy → Table
  | .abort | .skip => []
  | .retry n => [("on_generator_failure", policyValue (.retry n))]

/-- The table of the campaign, with the policy inside. -/
def CampaignSettings.table (c : CampaignSettings) : Table :=
  c.written.table ++ policyTable c.policy

/-- The table that the text of settings holds. -/
def Settings.table (s : Settings) : Table :=
  [ ("toolchain", .table s.toolchain.written.table),
    ("workspace", .table s.workspace.written.table), ("campaign", .table s.campaign.table) ]

/-- The three tables at the top of the document, under construction. -/
def Settings.fields (s : Settings) (campaign : Fields) : Fields :=
  [ ("toolchain", .table .header s.toolchain.written.fields),
    ("workspace", .table .header s.workspace.written.fields),
    ("campaign", .table .header campaign) ]

theorem Settings.follow_tables (s : Settings) :
    ([s.toolchain.written, s.workspace.written, s.campaign.written].flatMap
        Section.statements).foldlM Draft.follow ⟨[], []⟩ =
      some ⟨s.fields s.campaign.written.fields, ["campaign"]⟩ := by
  simp only [List.flatMap_cons, List.flatMap_nil, List.append_nil, List.foldlM_append,
    Option.bind_eq_bind]
  rw [Draft.follow_top s.toolchain.plain_written rfl rfl, Option.bind_some,
    Draft.follow_top s.workspace.plain_written rfl (by simp), Option.bind_some,
    Draft.follow_top s.campaign.plain_written rfl (by simp)]
  rfl

/-- The entry of a policy with data, under construction: its name is only passed through. -/
def policyFields : Policy → Fields
  | .abort | .skip => []
  | .retry n =>
    [("on_generator_failure",
      .table .passage [("retry", .table .header [("attempts", .value (.integer n.toNat))])])]

/-- A policy with data has no entry in the table of the campaign. -/
theorem CampaignSettings.lookup_policy_of_retry {c : CampaignSettings} {n : UInt32}
    (h : c.policy = .retry n) : c.written.fields.lookup "on_generator_failure" = none := by
  obtain ⟨timeBudget, level, singlePass, policy⟩ := c
  subst h
  cases singlePass <;> simp [CampaignSettings.written, Section.fields, policyEntries]

/-- The table of a policy goes into the one of the campaign. -/
theorem Settings.follow_policySections (s : Settings) :
    ∃ path, ((policySections s.campaign.policy).flatMap Section.statements).foldlM Draft.follow
        ⟨s.fields s.campaign.written.fields, ["campaign"]⟩ =
      some ⟨s.fields (s.campaign.written.fields ++ policyFields s.campaign.policy), path⟩ := by
  cases h : s.campaign.policy with
  | abort => exact ⟨["campaign"], by simp [policySections, policyFields]⟩
  | skip => exact ⟨["campaign"], by simp [policySections, policyFields]⟩
  | retry n =>
    have hcampaign : (s.fields s.campaign.written.fields).lookup "campaign" =
        some (.table .header s.campaign.written.fields) := rfl
    have hpolicy := CampaignSettings.lookup_policy_of_retry h
    have hplain := plain_retrySection n
    refine ⟨(retrySection n).path, ?_⟩
    rw [show policySections (.retry n) = [retrySection n] from rfl, List.flatMap_cons,
      List.flatMap_nil, List.append_nil, Draft.follow_section hplain.named]
    show (Fields.within (retrySection n).addTo ["campaign", "on_generator_failure"]
      (s.fields s.campaign.written.fields)).map _ = _
    rw [Fields.within_table _ _ hcampaign, Fields.within_new _ _ hpolicy, Fields.within,
      Section.addTo_of_lookup hplain.keys_nodup rfl, Option.map_some, Option.map_some,
      Fields.put_of_lookup_eq_none hpolicy]
    rfl

/-- A written document builds the table of the settings. -/
theorem Settings.build?_sections (s : Settings) :
    build? (s.sections.flatMap Section.statements) = some s.table := by
  obtain ⟨path, hpath⟩ := s.follow_policySections
  have hpolicy : sealFields (policyFields s.campaign.policy) = policyTable s.campaign.policy := by
    cases s.campaign.policy <;> rfl
  unfold build? Settings.sections
  rw [List.flatMap_append, List.foldlM_append, s.follow_tables, Option.bind_eq_bind,
    Option.bind_some, hpath, Option.map_some]
  simp [Settings.fields, sealFields, Node.seal, sealFields_fields, sealFields_append, hpolicy,
    Settings.table, CampaignSettings.table]

/-! ## Values -/

theorem Toml.Value.string?_string (s : String) : Value.string? (Entry.string s).value = some s :=
  rfl

theorem strings?_strings (items : List String) :
    Value.strings? (Entry.strings items).value = some items := by
  show (items.map Value.string).mapM Value.string? = some items
  induction items with
  | nil => rfl
  | cons item items ih => simp [Value.string?, ih]

theorem below?_natCast {limit n : Nat} (h : n < limit) :
    (Value.integer n).below? limit = some n := by
  rw [Value.below?, if_pos ⟨Int.natCast_nonneg n, Int.ofNat_lt.2 h⟩, Int.toNat_natCast]

theorem word8?_number (n : UInt8) : Value.word8? (Entry.number n.toNat).value = some n := by
  rw [Value.word8?, Entry.value, below?_natCast n.toNat_lt, Option.map_some, UInt8.ofNat_toNat]

theorem attempts?_retry (n : UInt32) :
    Value.attempts? (.table [("attempts", .integer n.toNat)]) = some n := by
  rw [Value.attempts?, if_pos rfl, Value.word32?, below?_natCast n.toNat_lt, Option.map_some,
    UInt32.ofNat_toNat]

theorem span?_text (s : Span) : Value.span? (Entry.string s.text).value = some s := by
  show Span.read? (String.ofList s.write).toList = some s
  rw [String.toList_ofList, Span.read?_write]

/-! ## Sections -/

theorem ToolchainSettings.ofSection?_table (t : ToolchainSettings) :
    ofSection? (.table t.written.table) = some t := by
  simp [ofSection?, Value.field?, Value.slot?, written, Section.table, List.lookup_cons,
    strings?_strings, Value.string?_string]

theorem WorkspaceSettings.ofSection?_table (w : WorkspaceSettings) :
    ofSection? (.table w.written.table) = some w := by
  simp [ofSection?, Value.field?, Value.slot?, written, Section.table, List.lookup_cons,
    Value.string?_string]

theorem policy?_policyValue (p : Policy) : Value.policy? (policyValue p) = some p := by
  cases p with
  | abort => rfl
  | skip => rfl
  | retry n =>
    rw [policyValue, Value.policy?, if_neg (by decide), if_neg (by decide), if_pos rfl,
      attempts?_retry]
    rfl

/-- What the table of the campaign holds for each field; it holds nothing for a pass that is
    not set. -/
theorem CampaignSettings.lookup_table (c : CampaignSettings) :
    c.table.lookup "time_budget" = some (Entry.string c.timeBudget.text).value ∧
    c.table.lookup "opt_level" = some (Entry.number c.level.toNat).value ∧
    c.table.lookup "single_pass" = c.singlePass.map (fun name => (Entry.string name).value) ∧
    c.table.lookup "on_generator_failure" = some (policyValue c.policy) := by
  obtain ⟨timeBudget, level, singlePass, policy⟩ := c
  cases singlePass <;> cases policy <;> exact ⟨rfl, rfl, rfl, rfl⟩

theorem CampaignSettings.ofSection?_table (c : CampaignSettings) :
    ofSection? (.table c.table) = some c := by
  obtain ⟨hbudget, hlevel, hpass, hpolicy⟩ := c.lookup_table
  obtain ⟨timeBudget, level, singlePass, policy⟩ := c
  cases singlePass with
  | none =>
    simp [ofSection?, Value.field?, Value.slot?, hbudget, hlevel, hpass, hpolicy, span?_text,
      word8?_number, policy?_policyValue, default]
  | some name =>
    simp [ofSection?, Value.field?, Value.slot?, hbudget, hlevel, hpass, hpolicy, span?_text,
      word8?_number, policy?_policyValue, Value.string?_string]

/-- The table of settings describes them. -/
theorem Settings.ofTable?_table (s : Settings) : ofTable? s.table = some s := by
  simp [ofTable?, sectionOf?, table, List.lookup_cons, Value.isSection,
    s.toolchain.ofSection?_table, s.workspace.ofSection?_table, s.campaign.ofSection?_table]

/-! ## The round trip -/

theorem Settings.ofText_text (s : Settings) : ofText s.text = .ok s := by
  unfold ofText text
  rw [String.toList_ofList, read?_write s.plain_sections, s.build?_sections]
  simp only [s.ofTable?_table]

/-- All settings are read back from their text as they were. So whatever document settings were
    read from, writing them settles them: what is read back is the same, and so is its text. -/
theorem Settings.text_roundTrip :
    (∀ s : Settings, ofText s.text = .ok s) ∧
    ∀ (document : String) (s : Settings), ofText document = .ok s →
      ∃ s', ofText s.text = .ok s' ∧ s' = s ∧ s'.text = s.text := by
  refine ⟨ofText_text, fun document s _ => ?_⟩
  exact ⟨s, ofText_text s, rfl, rfl⟩

/-- A document with one field alone: the others take their defaults, and are written. -/
theorem Settings.roundTrip_of_one_field :
    ∃ s : Settings, s.campaign.level = 2 ∧ s.workspace = .default ∧
      ofText "[campaign]\nopt_level = 2\n" = .ok s ∧
      ∃ s', ofText s.text = .ok s' ∧ s' = s ∧ s'.text = s.text := by
  have hplain : Section.Plain ⟨["campaign"], [("opt_level", .number 2)]⟩ :=
    { named := List.cons_ne_nil _ _
      names_bare := by decide +kernel
      short := show 1 < maxPathSize by decide
      keys_bare := by decide +kernel
      keys_nodup := by decide
      in_range := fun e he => by
        rw [List.mem_singleton.1 he]
        exact show 2 ≤ maxInteger by decide }
  -- the text is what a section with this one entry is written as
  have hwritten : "[campaign]\nopt_level = 2\n".toList =
      Toml.write [⟨["campaign"], [("opt_level", .number 2)]⟩] := by
    have htwo : Text.numeral 2 = ['2'] := by
      rw [Text.numeral]
      rfl
    simp [Toml.write, Section.write, writeEntry, Entry.write, htwo]
  have hbuild : build? ([⟨["campaign"], [("opt_level", .number 2)]⟩].flatMap Section.statements) =
      some [("campaign", .table [("opt_level", .integer 2)])] := by
    rw [build?, List.flatMap_cons, List.flatMap_nil, List.append_nil,
      Draft.follow_top hplain rfl rfl]
    rfl
  have hread : ofText "[campaign]\nopt_level = 2\n" =
      .ok { Settings.default with campaign := { CampaignSettings.default with level := 2 } } := by
    rw [ofText, hwritten, read?_write (List.forall_mem_singleton.2 hplain), hbuild]
    rfl
  exact ⟨_, rfl, rfl, hread, text_roundTrip.2 _ _ hread⟩

end CompilerFuzz
