import Licensing.Proofs.Settings.Acceptance

/-!
# Blanks do not matter

What is loaded depends on some variables only (`isRead_iff`), and of these only on what they are set
to, so blanks around their values and values that are blank make no difference
(`load_eq_of_alike`): neither to the settings nor to the error. Of the two groups of variables for
certificates and keys only the one that is used counts.
-/

namespace Licensing.Settings

open Variables (IsFlag flag_eq_ok_iff optional_eq_some_iff optional_eq_none_iff)

variable {α : Type} {parse : Url.Parser} {vars vars' : Variables} {s : Settings} {key : String}

/-! ### The variables that are read -/

/-- The variables that say something else than a truth value, a number or an address, apart from
those for certificates and keys. -/
def textVariables : List String :=
  ["ENT_FEATURES_PATH", "ENT_BUNDLE_INFO_YAML", "ENT_OPENAPI_SPEC_PATH", "ENT_CLIENT_ID",
    "ENT_CLIENT_SECRET", "ENT_AMS_ACCT_MGMT_11_ERR_MSG", "ENT_BOP_CLIENT_ID", "ENT_BOP_TOKEN",
    "ENT_BOP_ENV", "ENT_PAID_FEATURE_SUFFIX", "ENT_API_VERSION", "ENT_COMMIT"]

/-- The variables that are read whatever the others say. -/
def readVariables : List String :=
  flagVariables ++ numberVariables.map NumberVariable.key ++ urlVariables.map Prod.fst ++
    textVariables

/-- The variables of a group. -/
def TlsGroup.variables (group : TlsGroup) : List String :=
  [group.ca, group.cert, group.key]

/-- What is loaded from the variables that are read, by any reader of URLs. -/
theorem loadBy_congr (parse : Url.Parser)
    (hread : ∀ key ∈ readVariables, vars.optional key = vars'.optional key)
    (htls : ∀ inline, vars.YieldsFlag "ENT_CERTS_FROM_ENV" false inline →
      ∀ key ∈ (tlsGroup inline).variables, vars.optional key = vars'.optional key) :
    loadBy parse vars = loadBy parse vars' := by
  have hflag : ∀ key default, key ∈ readVariables →
      vars.flag key default = vars'.flag key default := fun key default hkey ↦ by
    rw [Variables.flag, Variables.flag, hread key hkey]
  have hnumber : ∀ key most default, key ∈ readVariables →
      vars.number key most default = vars'.number key most default :=
    fun key most default hkey ↦ by rw [Variables.number, Variables.number, hread key hkey]
  have hstring : ∀ key default, key ∈ readVariables →
      vars.string key default = vars'.string key default := fun key default hkey ↦ by
    rw [Variables.string, Variables.string, hread key hkey]
  have hgroup : ∀ inline, vars.flag "ENT_CERTS_FROM_ENV" false = .ok inline →
      TlsSettings.ofVariables vars inline = TlsSettings.ofVariables vars' inline := by
    intro inline hinline
    have hoptional := htls inline (flag_eq_ok_iff.1 hinline)
    simp only [TlsGroup.variables, List.forall_mem_cons] at hoptional
    obtain ⟨hca, hcert, hkey, -⟩ := hoptional
    rw [tls_ofVariables_eq, tls_ofVariables_eq, hca, hcert, hkey]
  have hsettings : ofVariables vars = ofVariables vars' := by
    -- The group that is used is known only where the flag for it can be read.
    rw [ofVariables, ofVariables, ← hflag "ENT_CERTS_FROM_ENV" false (by decide)]
    refine bind_congr_of_eq_ok fun inline hinline ↦ ?_
    simp (disch := decide) only [hflag, hnumber, hstring, hread, hgroup inline hinline]
  rw [loadBy, loadBy, hsettings]

/-! ### Each of them is read -/

/-- What is loaded depends on a variable. -/
def IsRead (key : String) : Prop :=
  ∃ vars vars' : Variables, (∀ k, k ≠ key → vars k = vars' k) ∧ load vars ≠ load vars'

/-- Nothing is set but the group of variables that is used. -/
def bare (inline : Bool) : Variables := fun key ↦
  if key = "ENT_CERTS_FROM_ENV" then some (if inline then "true" else "false") else none

/-- The least that can be set leaves all variables unset but one. -/
theorem bare_unset (inline : Bool) (hkey : key ≠ "ENT_CERTS_FROM_ENV") :
    (bare inline).Unset key := fun value hvalue ↦ by
  rw [bare, if_neg hkey] at hvalue
  cases hvalue

/-- This one says where certificates come from. -/
theorem bare_sets (inline : Bool) :
    (bare inline).Sets "ENT_CERTS_FROM_ENV" (if inline then "true" else "false") := by
  refine ⟨_, if_pos rfl, ?_⟩
  cases inline <;> decide

/-- It says it by a flag. -/
theorem isFlag_bare (inline : Bool) : IsFlag (if inline then "true" else "false") inline := by
  cases inline <;> decide

/-- The least that can be set is accepted. -/
theorem acceptable_bare (inline : Bool) : Acceptable Url.parse (bare inline) :=
  acceptable_of_unset readsDefaults_parse (fun _ ↦ bare_unset inline) fun _ hset ↦
    ⟨inline, hset.eq (bare_sets inline) ▸ isFlag_bare inline⟩

/-- A variable is set to a letter, as an example of a change. -/
theorem sets_update (vars : Variables) (key : String) :
    Variables.Sets (Function.update vars key (some "x")) key "x" :=
  ⟨"x", Function.update_self .., by decide, by decide⟩

/-- A variable that a part of the settings comes from is read. -/
theorem isRead_of_yields {means : String → α → Prop} {default : α} (inline : Bool)
    (hkey : key ≠ "ENT_CERTS_FROM_ENV") (f : Settings → α)
    (hf : ∀ vars s, vars.YieldsFlag "ENT_CERTS_FROM_ENV" false inline → Stated vars s →
      vars.Yields key means default (f s)) (hne : ¬ means "x" default) : IsRead key := by
  refine ⟨Function.update (bare inline) key (some "x"), bare inline,
    fun k hk ↦ Function.update_of_ne hk .., fun heq ↦ ?_⟩
  obtain ⟨s, hs⟩ := exists_loadBy_iff.2 (acceptable_bare inline)
  have hflag : ∀ vars : Variables, vars "ENT_CERTS_FROM_ENV" = bare inline "ENT_CERTS_FROM_ENV" →
      vars.YieldsFlag "ENT_CERTS_FROM_ENV" false inline := by
    intro vars hvars
    obtain ⟨value, hvalue, hrest⟩ := bare_sets inline
    exact .set ⟨value, hvars.trans hvalue, hrest⟩ (isFlag_bare inline)
  -- If the same is loaded with the variable and without it, its text means the default.
  have hset := hf _ s (hflag _ (Function.update_of_ne (Ne.symm hkey) ..))
    (loadBy_eq_ok_iff.1 (heq.trans hs)).1
  have hunset := hf _ s (hflag _ rfl) (loadBy_eq_ok_iff.1 hs).1
  have hmeans := hset.means_of_sets (sets_update _ _)
  rw [hunset.eq_of_unset (bare_unset inline hkey)] at hmeans
  exact hne hmeans

/-- So is one that can be set to something that makes no sense. -/
theorem isRead_of_malformed
    (h : Malformed Url.parse (Function.update (bare false) key (some "x"))) : IsRead key := by
  refine ⟨Function.update (bare false) key (some "x"), bare false,
    fun k hk ↦ Function.update_of_ne hk .., fun heq ↦ ?_⟩
  obtain ⟨s, hs⟩ := exists_loadBy_iff.2 (acceptable_bare false)
  exact (exists_loadBy_iff.1 ⟨s, heq.trans hs⟩).not_malformed h

/-- The letter is no number. -/
theorem not_isNumeral_x : ∀ n, ¬ Decimal.IsNumeral "x" n := by
  rintro n ⟨ds, hds | hds, -, hdigits, -⟩
  · rw [← hds] at hdigits
    exact absurd (hdigits 'x' (by decide)) (by decide)
  · have hds : ['x'] = '+' :: ds := hds
    exact absurd (List.cons.inj hds).1 (by decide)

/-- It is no address of a web service. -/
theorem not_isWebUrl_x : ¬ IsWebUrl Url.parse "x" := by
  intro h
  have hcheck : checkUrl Url.parse "ENT_BOP_URL" "x" = .ok () := checkUrl_eq_ok_iff.2 fun _ ↦ h
  exact absurd hcheck (by decide +kernel)

/-- The path of the feature service is read. -/
theorem isRead_featuresPath : IsRead "ENT_FEATURES_PATH" := by
  have hpath : ∀ vars s, vars.YieldsFlag "ENT_CERTS_FROM_ENV" false false → Stated vars s →
      vars.Yields "ENT_FEATURES_PATH" (fun text path ↦ path = normalizePath text)
        (normalizePath "/svcrest/subscription/v5") s.featuresPath := by
    intro vars s _ h
    obtain ⟨path, hpath, hnormal⟩ := h.featuresPath
    rw [hnormal]
    exact hpath.map normalizePath
  exact isRead_of_yields false (by decide) Settings.featuresPath hpath (by decide +kernel)

/-- Every variable with a text of its own is read. -/
theorem isRead_of_mem_textVariables : ∀ key ∈ textVariables, IsRead key := by
  simp only [textVariables, List.forall_mem_cons]
  exact ⟨isRead_featuresPath,
    isRead_of_yields false (by decide) _ (fun _ _ _ h ↦ h.bundlesFile) (by decide),
    isRead_of_yields false (by decide) _ (fun _ _ _ h ↦ h.openapiFile) (by decide),
    isRead_of_yields false (by decide) _ (fun _ _ _ h ↦ h.clientId) (by decide),
    isRead_of_yields false (by decide) _ (fun _ _ _ h ↦ h.clientSecret) (by decide),
    isRead_of_yields false (by decide) _ (fun _ _ _ h ↦ h.hint) (by decide),
    isRead_of_yields false (by decide) _ (fun _ _ _ h ↦ h.directoryClientId) (by decide),
    isRead_of_yields false (by decide) _ (fun _ _ _ h ↦ h.directoryToken) (by decide),
    isRead_of_yields false (by decide) _ (fun _ _ _ h ↦ h.directoryEnvironment) (by decide),
    isRead_of_yields false (by decide) _ (fun _ _ _ h ↦ h.paidSuffix) (by decide),
    isRead_of_yields false (by decide) _ (fun _ _ _ h ↦ h.apiVersion) (by decide),
    isRead_of_yields false (by decide) _ (fun _ _ _ h ↦ h.commit) (by decide), by simp⟩

/-- Every variable of the settings is read. -/
theorem isRead_of_mem (hkey : key ∈ readVariables) : IsRead key := by
  simp only [readVariables, List.mem_append, List.mem_map] at hkey
  obtain ((hkey | ⟨v, hv, rfl⟩) | ⟨v, hv, rfl⟩) | hkey := hkey
  · exact isRead_of_malformed (.flag hkey (sets_update _ _) (by decide))
  · exact isRead_of_malformed
      (.number hv (sets_update _ _) fun n hn ↦ absurd hn (not_isNumeral_x n))
  · exact isRead_of_malformed (.url hv (sets_update _ _) not_isWebUrl_x)
  · exact isRead_of_mem_textVariables key hkey

/-- Every variable about certificates is read where certificates come from there. -/
theorem isRead_of_mem_group (inline : Bool) : ∀ key ∈ (tlsGroup inline).variables, IsRead key := by
  have htls : ∀ vars s, vars.YieldsFlag "ENT_CERTS_FROM_ENV" false inline → Stated vars s →
      TlsStated vars (tlsGroup inline) s.tls := by
    intro vars s hinline h
    obtain ⟨inline', hinline', hstated⟩ := h.tls
    exact hinline.unique hinline' ▸ hstated
  have hkeys : ∀ key ∈ (tlsGroup inline).variables, key ≠ "ENT_CERTS_FROM_ENV" := by
    cases inline <;> decide
  simp only [TlsGroup.variables, List.forall_mem_cons] at hkeys ⊢
  obtain ⟨hca, hcert, hkey, -⟩ := hkeys
  exact ⟨isRead_of_yields inline hca _ (fun vars s hinline h ↦ (htls vars s hinline h).ca) nofun,
    isRead_of_yields inline hcert _ (fun vars s hinline h ↦ (htls vars s hinline h).cert) nofun,
    isRead_of_yields inline hkey _ (fun vars s hinline h ↦ (htls vars s hinline h).key) nofun,
    by simp⟩

/-- **The variables that are read**: those that always are, and the two groups. -/
theorem isRead_iff :
    IsRead key ↔ key ∈ readVariables ∨ ∃ inline, key ∈ (tlsGroup inline).variables := by
  constructor
  · rintro ⟨vars, vars', hothers, hne⟩
    by_contra hkey
    obtain ⟨hread, hgroup⟩ := not_or.1 hkey
    have hsame : ∀ k, k ≠ key → vars.optional k = vars'.optional k := fun k hk ↦ by
      rw [Variables.optional, Variables.optional, hothers k hk]
    refine hne (loadBy_congr Url.parse (fun k hk ↦ hsame k ?_) fun inline _ k hk ↦ hsame k ?_)
    · rintro rfl
      exact hread hk
    · rintro rfl
      exact hgroup ⟨inline, hk⟩
  · rintro (hkey | ⟨inline, hkey⟩)
    · exact isRead_of_mem hkey
    · exact isRead_of_mem_group inline key hkey

/-! ### Blanks -/

/-- A variable says the same twice: it is not set, or both times it is set to the same text. What
is blank is not set, and blanks around a text are not a part of it. -/
def SaysSame (vars vars' : Variables) (key : String) : Prop :=
  vars.Unset key ∧ vars'.Unset key ∨ ∃ text, vars.Sets key text ∧ vars'.Sets key text

/-- Two variables say the same exactly if the same text is read from them. -/
theorem saysSame_iff : SaysSame vars vars' key ↔ vars.optional key = vars'.optional key := by
  simp only [SaysSame, ← optional_eq_none_iff, ← optional_eq_some_iff]
  cases vars.optional key <;> cases vars'.optional key <;> simp [eq_comm]

instance (vars vars' : Variables) (key : String) : Decidable (SaysSame vars vars' key) :=
  decidable_of_iff _ saysSame_iff.symm

/-- The variables that count say the same twice: those that are read whatever the others say, and
the group that is used. -/
structure Alike (vars vars' : Variables) : Prop where
  /-- What is read whatever the others say. -/
  read : ∀ key ∈ readVariables, SaysSame vars vars' key
  /-- The group that is used, if it is clear which one that is. -/
  tls : ∀ inline, vars.YieldsFlag "ENT_CERTS_FROM_ENV" false inline →
    ∀ key ∈ (tlsGroup inline).variables, SaysSame vars vars' key

/-- **Blanks do not matter**: where the variables that count say the same, the settings are the
same, or the error is, whatever texts are read as URLs. -/
theorem load_eq_of_alike (parse : Url.Parser) (h : Alike vars vars') :
    loadBy parse vars = loadBy parse vars' :=
  loadBy_congr parse (fun key hkey ↦ saysSame_iff.1 (h.read key hkey))
    fun inline hinline key hkey ↦ saysSame_iff.1 (h.tls inline hinline key hkey)

/-- Blanks around a port and a flag, a blank certificate, a path in the group that is not used and
a variable that is not read. -/
theorem load_blanks_eq :
    let vars : Variables := fun key ↦ List.lookup key
      [("ENT_PORT", " 8080\n"), ("ENT_CERTS_FROM_ENV", "\tTRUE"), ("ENT_CERT", "  "),
        ("ENT_CERT_PATH", "/etc/certificate"), ("HOME", "/root")]
    let vars' : Variables := fun key ↦ List.lookup key
      [("ENT_PORT", "8080"), ("ENT_CERTS_FROM_ENV", "TRUE"), ("ENT_DEBUG", "")]
    Alike vars vars' ∧ load vars = load vars' := by
  intro vars vars'
  have halike : Alike vars vars' := by
    constructor
    case read => decide +kernel
    case tls =>
      simp only [← flag_eq_ok_iff]
      decide +kernel
  exact ⟨halike, load_eq_of_alike Url.parse halike⟩

end Licensing.Settings
