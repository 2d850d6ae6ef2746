import ServiceBalancer.CommandLine

/-! Where each setting of a run comes from. What is given on the command line comes first, then what the settings file
names, field by field, and then the default. One setting is an exception: a table of the file that is about the retry of
status writes, but does not name their number, has that of deletions. -/
namespace ServiceBalancer

/-! ### Settings one by one -/

inductive BackoffField where
  | floorSecs | factor | ceilingSecs | plateauSecs | quietPeriodSecs | decayCheckSecs

inductive RetryField where
  | initialMillis | factor | steps | jitter

/-- The settings of the controller, those of its parts included. -/
inductive Setting where
  | clusterName | workers | errorRequeueSecs | resyncSecs | rules
  | backoff (f : BackoffField)
  | deleteRetry (f : RetryField)
  | statusRetry (f : RetryField)

namespace BackoffField

abbrev Value : BackoffField → Type
  | factor => Float
  | _ => Nat

def key : BackoffField → Nat × String
  | floorSecs => (0, "floor_secs")
  | factor => (1, "factor")
  | ceilingSecs => (2, "ceiling_secs")
  | plateauSecs => (3, "plateau_secs")
  | quietPeriodSecs => (4, "quiet_period_secs")
  | decayCheckSecs => (5, "decay_check_secs")

def read : (f : BackoffField) → Toml → Option f.Value
  | factor => Toml.number?
  | floorSecs | ceilingSecs | plateauSecs | quietPeriodSecs | decayCheckSecs => Toml.count?

def get (b : BackoffSettings) : (f : BackoffField) → f.Value
  | floorSecs => b.floorSecs
  | factor => b.factor
  | ceilingSecs => b.ceilingSecs
  | plateauSecs => b.plateauSecs
  | quietPeriodSecs => b.quietPeriodSecs
  | decayCheckSecs => b.decayCheckSecs

end BackoffField

namespace RetryField

abbrev Value : RetryField → Type
  | factor | jitter => Float
  | initialMillis | steps => Nat

def key : RetryField → Nat × String
  | initialMillis => (0, "initial_millis")
  | factor => (1, "factor")
  | steps => (2, "steps")
  | jitter => (3, "jitter")

def read : (f : RetryField) → Toml → Option f.Value
  | initialMillis => Toml.count?
  | steps => Toml.natural? (Nat.pow 2 32)
  | factor | jitter => Toml.number?

def get (p : RetryPolicy) : (f : RetryField) → f.Value
  | initialMillis => p.initialMillis
  | factor => p.factor
  | steps => p.steps
  | jitter => p.jitter

/-- Both policies pause alike, and differ in the number of tries. -/
theorem get_deletion {f : RetryField} (h : f ≠ steps) : f.get .deletion = f.get .status := by
  cases f with
  | steps => exact absurd rfl h
  | _ => rfl

end RetryField

namespace Setting

abbrev Value : Setting → Type
  | clusterName => String
  | workers | errorRequeueSecs | resyncSecs => Nat
  | rules => List ClassifierRule
  | backoff f => f.Value
  | deleteRetry f | statusRetry f => f.Value

def path : Setting → List (Nat × String)
  | clusterName => [(0, "cluster_name")]
  | workers => [(1, "workers")]
  | errorRequeueSecs => [(2, "error_requeue_secs")]
  | resyncSecs => [(3, "resync_secs")]
  | backoff f => [(4, "backoff"), f.key]
  | deleteRetry f => [(5, "delete_retry"), f.key]
  | statusRetry f => [(6, "status_retry"), f.key]
  | rules => [(7, "classifier_rules")]

def read : (x : Setting) → Toml → Option x.Value
  | clusterName => Toml.text?
  | workers | errorRequeueSecs | resyncSecs => Toml.count?
  | rules => Toml.list? ClassifierRule.ofToml?
  | backoff f => f.read
  | deleteRetry f | statusRetry f => f.read

def get (s : Settings) : (x : Setting) → x.Value
  | clusterName => s.clusterName
  | workers => s.workers
  | errorRequeueSecs => s.errorRequeueSecs
  | resyncSecs => s.resyncSecs
  | rules => s.rules
  | backoff f => f.get s.backoff
  | deleteRetry f => f.get s.deleteRetry
  | statusRetry f => f.get s.statusRetry

def given? (o : Settings.Overrides) : (x : Setting) → Option x.Value
  | clusterName => o.clusterName
  | workers => o.workers
  | resyncSecs => o.resyncSecs
  | errorRequeueSecs | rules | backoff _ | deleteRetry _ | statusRetry _ => none

end Setting

namespace Toml
variable {α β : Type}

def at? : Toml → List (Nat × String) → Option Toml
  | t, [] => some t
  | t, (place, name) :: path => (t.field? place name).bind (·.at? path)

def Fills (found : Option Toml) (read : Toml → Option α) (fallback a : α) : Prop :=
  match found with
  | some t => read t = some a
  | none => a = fallback

theorem orElse?_eq_some {t : Toml} {place : Nat} {name : String} {read : Toml → Option α} {fallback a : α} :
    t.orElse? place name read fallback = some a ↔ Fills (t.field? place name) read fallback a := by
  unfold orElse? Fills
  cases t.field? place name with
  | none => exact Option.some_inj.trans eq_comm
  | some value => exact Iff.rfl

/-- If nothing is missing, the fallback does not matter. -/
theorem Fills.of_ne_none {found : Option Toml} {read : Toml → Option α} {fallback a : α}
    (h : Fills found read fallback a) (hfound : found ≠ none) (other : α) : Fills found read other a := by
  cases found with
  | none => exact absurd rfl hfound
  | some t => exact h

@[simp] theorem at?_singleton (t : Toml) (key : Nat × String) : t.at? [key] = t.field? key.1 key.2 := by simp [at?]

/-- A field of a part comes from the part if that is found and names it, and is else that of the default part. -/
theorem Fills.part {found : Option Toml} {read : Toml → Option α} {fallback a : α} (h : Fills found read fallback a)
    (key : Nat × String) (readField : Toml → Option β) (field : α → β)
    (hread : ∀ t, found = some t → read t = some a →
      Fills (t.field? key.1 key.2) readField (field fallback) (field a)) :
    Fills (found.bind (·.at? [key])) readField (field fallback) (field a) := by
  cases found with
  | none =>
    obtain rfl : a = fallback := h
    exact rfl
  | some t => simpa using hread t rfl h

end Toml

variable {t : Toml}

theorem BackoffSettings.ofToml?_fills {b : BackoffSettings} (h : ofToml? t = some b) (f : BackoffField) :
    Toml.Fills (t.field? f.key.1 f.key.2) f.read (f.get {}) (f.get b) := by
  obtain ⟨_, -, h⟩ := Option.bind_eq_some_iff.mp h
  simp only [Option.bind_eq_bind, Option.bind_eq_some_iff, Option.pure_def, Option.some_inj,
    Toml.orElse?_eq_some] at h
  obtain ⟨_, _, _, _, _, _, _, _, _, _, _, _, rfl⟩ := h
  cases f <;> assumption

/-- What a retry policy lacks is that of deletions. -/
theorem RetryPolicy.ofToml?_fills {p : RetryPolicy} (h : ofToml? t = some p) (f : RetryField) :
    Toml.Fills (t.field? f.key.1 f.key.2) f.read (f.get .deletion) (f.get p) := by
  obtain ⟨_, -, h⟩ := Option.bind_eq_some_iff.mp h
  simp only [Option.bind_eq_bind, Option.bind_eq_some_iff, Option.pure_def, Option.some_inj,
    Toml.orElse?_eq_some] at h
  obtain ⟨_, _, _, _, _, _, _, _, rfl⟩ := h
  cases f <;> assumption

namespace Setting

/-- Whether a document is about the retry of status writes, but does not say how often they are tried. -/
def LacksSteps (t : Toml) : Prop :=
  ∃ part, t.at? [(6, "status_retry")] = some part ∧ part.at? [(2, "steps")] = none

theorem LacksSteps.at?_path (h : LacksSteps t) : t.at? (statusRetry .steps).path = none := by
  obtain ⟨part, hpart, hsteps⟩ := h
  rw [Toml.at?_singleton] at hpart
  change (t.field? 6 "status_retry").bind (·.at? [(2, "steps")]) = none
  rw [hpart, Option.bind_some, hsteps]

theorem statusRetry_fills {s : Settings} (h : Settings.ofToml? t = some s) :
    Toml.Fills (t.field? 6 "status_retry") RetryPolicy.ofToml? .status s.statusRetry := by
  obtain ⟨_, -, h⟩ := Option.bind_eq_some_iff.mp h
  simp only [Option.bind_eq_bind, Option.bind_eq_some_iff, Option.pure_def, Option.some_inj,
    Toml.orElse?_eq_some] at h
  obtain ⟨_, _, _, _, _, _, _, _, _, _, _, _, statusRetry, hfills, _, _, rfl⟩ := h
  exact hfills

/-- Each setting of a document is as it is named there, and else as in the defaults, unless the document lacks the
number of tries. -/
theorem fills_ofToml? {s : Settings} (h : Settings.ofToml? t = some s) {x : Setting}
    (hx : x = .statusRetry .steps → ¬ LacksSteps t) : Toml.Fills (t.at? x.path) x.read (x.get {}) (x.get s) := by
  have hstatus := statusRetry_fills h
  obtain ⟨_, -, h⟩ := Option.bind_eq_some_iff.mp h
  simp only [Option.bind_eq_bind, Option.bind_eq_some_iff, Option.pure_def, Option.some_inj,
    Toml.orElse?_eq_some] at h
  obtain ⟨clusterName, h₀, workers, h₁, errorRequeueSecs, h₂, resyncSecs, h₃, backoff, h₄, deleteRetry, h₅,
    statusRetry, -, rules, h₇, rfl⟩ := h
  cases x with
  | backoff f => exact h₄.part f.key f.read (f.get ·) fun t _ ht => BackoffSettings.ofToml?_fills ht f
  | deleteRetry f => exact h₅.part f.key f.read (f.get ·) fun t _ ht => RetryPolicy.ofToml?_fills ht f
  | statusRetry f =>
    refine hstatus.part f.key f.read (f.get ·) fun part hpart ht => ?_
    have hfills := RetryPolicy.ofToml?_fills ht f
    by_cases hf : f = .steps
    · subst hf
      have hsteps : part.at? [(2, "steps")] ≠ none := fun hnone => hx rfl ⟨part, by simpa using hpart, hnone⟩
      rw [Toml.at?_singleton] at hsteps
      exact hfills.of_ne_none hsteps _
    · rwa [RetryField.get_deletion hf] at hfills
  | _ =>
    rw [path, Toml.at?_singleton]
    assumption

/-- A document that lacks the number of tries gets that of deletions. -/
theorem steps_of_lacksSteps {s : Settings} (h : Settings.ofToml? t = some s) (hl : LacksSteps t) :
    s.statusRetry.steps = RetryPolicy.deletion.steps := by
  obtain ⟨part, hpart, hsteps⟩ := hl
  rw [Toml.at?_singleton] at hpart hsteps
  have hstatus := statusRetry_fills h
  rw [hpart] at hstatus
  have hfills := RetryPolicy.ofToml?_fills hstatus .steps
  rwa [show part.field? RetryField.steps.key.1 RetryField.steps.key.2 = none from hsteps] at hfills

theorem get_override (s : Settings) (o : Settings.Overrides) (x : Setting) :
    x.get (s.override o) = (x.given? o).getD (x.get s) := by
  cases x <;> rfl

/-- Whether a setting has the value that is given on its own, or else the one that the file names, or else another. -/
def ComesFrom (o : Settings.Overrides) (file : Option Toml) (x : Setting) (other v : x.Value) : Prop :=
  match x.given? o with
  | some given => v = given
  | none => Toml.Fills (file.bind (·.at? x.path)) x.read other v

/-- What is given on its own comes first. -/
theorem comesFrom_override {s : Settings} {o : Settings.Overrides} {file : Option Toml} {x : Setting} {other : x.Value}
    (h : Toml.Fills (file.bind (·.at? x.path)) x.read other (x.get s)) :
    x.ComesFrom o file other (x.get (s.override o)) := by
  rw [get_override, ComesFrom]
  cases x.given? o with
  | some given => rfl
  | none => exact h

end Setting

namespace Settings

theorem accepted_eq_ok {s s' : Settings} : s.accepted = .ok s' ↔ s.fault? = none ∧ s = s' := by
  unfold accepted
  cases s.fault? with
  | none => simp
  | some fault => simp

def document? (content : Option ByteArray) : Option Toml :=
  (content.bind (String.fromUTF8? ·)).bind Toml.ofDocument?

theorem ofContent_eq_ok {content : Option ByteArray} {s : Settings} (h : ofContent content = .ok s) :
    ∃ t, document? content = some t ∧ ofToml? t = some s := by
  unfold ofContent at h
  split at h
  · cases h
  split at h
  · next bytes text htext =>
    unfold ofDocument at h
    split at h
    · next s' hs' =>
      obtain ⟨-, rfl⟩ := accepted_eq_ok.mp h
      obtain ⟨t, ht, hread⟩ := Option.bind_eq_some_iff.mp hs'
      exact ⟨t, by simp [document?, htext, ht], hread⟩
    · cases h
  · cases h

end Settings

namespace CommandLine.RunOptions

/-- The document of settings for a run, if there is to be one. -/
def document? (o : RunOptions) (content : Option ByteArray) : Option Toml :=
  o.config.bind fun _ => Settings.document? content

/-- Accepted settings are those of the document, or the defaults without one, below what is given on its own. -/
theorem settings_eq_ok {o : RunOptions} {content : Option ByteArray} {s : Settings} (h : o.settings content = .ok s) :
    s.fault? = none ∧ ∃ base : Settings, s = base.override o.overrides ∧
      (o.config = none ∧ o.document? content = none ∧ base = {} ∨
        ∃ t, o.config.isSome ∧ o.document? content = some t ∧ Settings.ofToml? t = some base) := by
  unfold settings Settings.combined at h
  rcases hc : o.config with _ | path
  all_goals rw [hc] at h
  · obtain ⟨hfault, rfl⟩ := Settings.accepted_eq_ok.mp h
    exact ⟨hfault, {}, rfl, .inl ⟨rfl, by simp [document?, hc], rfl⟩⟩
  · rcases hbase : Settings.ofContent content with e | base
    · simp [hbase, bind, Except.bind] at h
    · simp only [Option.map_some, hbase, bind, Except.bind] at h
      obtain ⟨hfault, rfl⟩ := Settings.accepted_eq_ok.mp h
      obtain ⟨t, ht, hread⟩ := Settings.ofContent_eq_ok hbase
      exact ⟨hfault, base, rfl, .inr ⟨t, rfl, by simp [document?, hc, ht], hread⟩⟩

variable {o : RunOptions} {content : Option ByteArray} {s : Settings} {t : Toml}

/-- Whether a document for a run is about the retry of status writes, but does not say how often they are tried. -/
def LacksSteps (o : RunOptions) (content : Option ByteArray) : Prop :=
  ∃ t, o.document? content = some t ∧ Setting.LacksSteps t

theorem comesFrom_settings (h : o.settings content = .ok s) {x : Setting}
    (hx : x = .statusRetry .steps → ¬ o.LacksSteps content) :
    x.ComesFrom o.overrides (o.document? content) (x.get {}) (x.get s) := by
  obtain ⟨-, base, rfl, ⟨-, hnone, rfl⟩ | ⟨t, -, ht, hread⟩⟩ := settings_eq_ok h
  · refine Setting.comesFrom_override ?_
    rw [hnone]
    exact rfl
  · refine Setting.comesFrom_override ?_
    rw [ht]
    exact Setting.fills_ofToml? hread fun he hl => hx he ⟨t, ht, hl⟩

theorem steps_of_lacksSteps (h : o.settings content = .ok s) (hl : o.LacksSteps content) :
    s.statusRetry.steps = RetryPolicy.deletion.steps := by
  obtain ⟨t, ht, hl⟩ := hl
  obtain ⟨-, base, rfl, ⟨-, hnone, -⟩ | ⟨t', -, ht', hread⟩⟩ := settings_eq_ok h
  · cases hnone.symm.trans ht
  · obtain rfl := Option.some.inj (ht'.symm.trans ht)
    change base.statusRetry.steps = _
    exact Setting.steps_of_lacksSteps hread hl

/-- The settings of a run are acceptable. Each is the one that is given on the command line, or else the one that the
file names, or else the default, with one exception: how often a status write is tried, in a file that is about
the retry of status writes and does not say so. It is as often as a deletion then. -/
theorem settings_overlaid (h : o.settings content = .ok s) :
    s.validate = .ok () ∧ (o.document? content).isSome = o.config.isSome ∧
    (∀ x : Setting, x ≠ .statusRetry .steps →
      x.ComesFrom o.overrides (o.document? content) (x.get {}) (x.get s)) ∧
    ((∀ x : Setting, x.ComesFrom o.overrides (o.document? content) (x.get {}) (x.get s)) ↔ ¬ o.LacksSteps content) ∧
    (o.LacksSteps content → s.statusRetry.steps = RetryPolicy.deletion.steps) := by
  refine ⟨?_, ?_, fun x hx => comesFrom_settings h fun he => absurd he hx, ⟨fun hall hl => ?_, fun hl x =>
    comesFrom_settings h fun _ => hl⟩, steps_of_lacksSteps h⟩
  · have hfault := (settings_eq_ok h).1
    simp [Settings.validate, hfault]
  · obtain ⟨-, _, -, ⟨hconfig, hnone, -⟩ | ⟨t, hconfig, ht, -⟩⟩ := settings_eq_ok h
    · simp [hconfig, hnone]
    · simp [hconfig, ht]
  · obtain ⟨t, ht, hlacks⟩ := id hl
    have hdefault : Toml.Fills ((o.document? content).bind (·.at? (Setting.statusRetry .steps).path)) _
      RetryPolicy.status.steps s.statusRetry.steps := hall (.statusRetry .steps)
    rw [ht, Option.bind_some, hlacks.at?_path] at hdefault
    have hdeletion := steps_of_lacksSteps h hl
    cases hdefault.symm.trans hdeletion

private def withFile (given : Settings.Overrides) : RunOptions :=
  ⟨.memory, true, some "settings.toml", given, "kube-system", false, .v4 [0, 0, 0, 0] 8080, false⟩

private def eastern : ByteArray := "cluster_name = 'east'\n[delete_retry]\n".toUTF8

/-- The number of workers is given, the file names the cluster, and the rest is as in the defaults. -/
theorem settings_overlaid_eastern : ∃ s, (withFile { workers := some 3 }).settings (some eastern) = .ok s ∧
    s.validate = .ok () ∧ s.workers = 3 ∧ s.clusterName = "east" ∧ s.resyncSecs = 600 ∧ s.statusRetry.steps = 3 := by
  have hsome : ((withFile { workers := some 3 }).settings (some eastern)).toOption.isSome = true := by decide +kernel
  rcases hs : (withFile { workers := some 3 }).settings (some eastern) with e | s
  · rw [hs] at hsome
    cases hsome
  have hdocument : (withFile { workers := some 3 }).document? (some eastern) =
      some (.table [("cluster_name", .text "east"), ("delete_retry", .table [])]) := rfl
  have hlacks : ¬ (withFile { workers := some 3 }).LacksSteps (some eastern) := by
    rintro ⟨t, ht, part, hpart, -⟩
    obtain rfl := Option.some.inj (ht.symm.trans hdocument)
    cases hpart
  obtain ⟨hvalid, -, -, hall, -⟩ := settings_overlaid hs
  have hfrom := hall.mpr hlacks
  rw [hdocument] at hfrom
  exact ⟨s, rfl, hvalid, hfrom .workers, (Option.some.inj (hfrom .clusterName)).symm, hfrom .resyncSecs,
    hfrom (.statusRetry .steps)⟩

private def aside : ByteArray := "[status_retry]\n".toUTF8

/-- It changes how often a status write is tried, from three times to eight. -/
theorem not_overlaid_aside : ∃ s, (withFile {}).settings (some aside) = .ok s ∧
    (withFile {}).document? (some aside) = some (.table [("status_retry", .table [])]) ∧ s.statusRetry.steps = 8 ∧
    ¬ (Setting.statusRetry .steps).ComesFrom {} ((withFile {}).document? (some aside)) RetryPolicy.status.steps
      s.statusRetry.steps := by
  have hsteps : ((withFile {}).settings (some aside)).toOption.map (·.statusRetry.steps) = some 8 := by decide +kernel
  rcases hs : (withFile {}).settings (some aside) with e | s
  · rw [hs] at hsteps
    cases hsteps
  rw [hs] at hsteps
  have hsteps : s.statusRetry.steps = 8 := Option.some.inj hsteps
  have hdocument : (withFile {}).document? (some aside) = some (.table [("status_retry", .table [])]) := rfl
  refine ⟨s, rfl, hdocument, hsteps, fun hfrom => ?_⟩
  rw [hdocument] at hfrom
  have hthree : s.statusRetry.steps = 3 := hfrom
  cases hthree.symm.trans hsteps

end CommandLine.RunOptions
end ServiceBalancer
