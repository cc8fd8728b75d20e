import Xraytool.Sanity.XrayAdapter
import Xraytool.Spec.ServerRouting

/-! The users of `config.json` while server routing is applied. The transaction changes other sections, so it does not
disturb a call of the adapter unless it writes inbounds that it has read before the call changed them. -/

namespace Xraytool.Xray

open Fallible Machine

variable {ext : Externals} {user : VPNUserConfig} {cfg cfg' : RawMap} {ibs : List RawMap}

variable {α : Type}

def afterModify (ioFails : Bool) (file : Option Raw) (change : RawMap → Except Failure (RawMap × α)) : Option Raw :=
  ((modifyWith ioFails file change).toOption.map Prod.fst).or file

variable {addr : String} {env : AdapterEnv} {fails : Faults} {m : Machine}

theorem file_updateConfig {name : String} {change : RawMap → Except Failure (RawMap × α)}
    {after : RawMap → α → Machine → Machine} (haf : ∀ old out m, (after old out m).file = m.file) :
    (m.updateConfig fails name change after).1.file = afterModify (fails .modify) m.file change := by
  have hhe := hotStep_healDirty m fails
  unfold updateConfig afterModify
  dsimp only
  rw [hhe.file]
  rcases modifyWith (fails .modify) m.file change with e | ⟨raw, out⟩
  · exact hhe.file
  · exact haf _ _ _

theorem file_addUserLocked : (m.addUserLocked env fails user).1.file =
      if user.email = "" then m.file else afterModify (fails .modify) m.file (placeUser env.ext user) := by
  unfold addUserLocked
  split_ifs
  · rfl
  · exact file_updateConfig fun _ _ _ => file_afterAdd

theorem file_removeUserLocked : (m.removeUserLocked env fails addr).1.file =
      if addr = "" ∨ isProtected env addr = true then m.file
      else afterModify (fails .modify) m.file (dropUser addr) := by
  unfold removeUserLocked
  by_cases hem : addr = ""
  · rw [if_pos hem, if_pos (.inl hem)]
  by_cases hpro : isProtected env addr = true
  · rw [if_neg hem, if_pos hpro, if_pos (.inr hpro)]
  rw [if_neg hem, if_neg hpro, if_neg (not_or.2 ⟨hem, hpro⟩)]
  exact file_updateConfig fun _ _ _ => file_afterRemove

/-- A change that goes by the inbounds: configs with the same inbounds have the same inbounds after it. -/
def ByInbounds (change : RawMap → Except Failure (RawMap × α)) : Prop :=
  ∀ cfg cfg', getInbounds cfg = getInbounds cfg' →
    (change cfg).toOption.map (getInbounds ·.1) = (change cfg').toOption.map (getInbounds ·.1)

variable {e : Failure} {raw : Raw} {file file' : Option Raw} {ioFails : Bool}
  {change : RawMap → Except Failure (RawMap × α)} {ib : RawMap}

theorem getInbounds_error (h : getInbounds cfg = .error e) : ∃ cause, e = .wrap "parsing inbounds" cause := by
  unfold getInbounds at h
  split at h
  · contradiction
  next raw _ =>
  rcases hraw : unmarshalMaps raw with cause | maps
  · rw [hraw] at h
    exact ⟨cause, (Except.error.inj h).symm⟩
  · rw [hraw] at h
    contradiction

/-- The decoding of a config fails with an error that reading its inbounds cannot have. -/
theorem unmarshalMap_error (h : unmarshalMap raw = .error e) : e = .json := by
  unfold unmarshalMap at h
  split at h <;> simp_all

/-- The inbounds of a file say whether it could be decoded at all. -/
theorem decoded_of_inboundsOf (hsa : inboundsOf file = inboundsOf file') (hf : file = some raw)
    (hcfg : unmarshalMap raw = .ok cfg) :
    ∃ raw' cfg', file' = some raw' ∧ unmarshalMap raw' = .ok cfg' ∧ getInbounds cfg = getInbounds cfg' := by
  have hr : inboundsOf file = getInbounds cfg := by
    rw [hf, inboundsOf, hcfg, ok_bind]
  rw [hr] at hsa
  rcases file' with - | raw'
  · obtain ⟨cause, hca⟩ := getInbounds_error hsa
    contradiction
  rcases hcfg' : unmarshalMap raw' with e | cfg'
  · have ho : inboundsOf (some raw') = .error e := by rw [inboundsOf, hcfg']; rfl
    obtain ⟨cause, hca⟩ := getInbounds_error (hsa.trans ho)
    rw [unmarshalMap_error hcfg'] at hca
    contradiction
  · refine ⟨raw', cfg', rfl, hcfg', ?_⟩
    rw [hsa, inboundsOf, hcfg', ok_bind]

theorem inboundsOf_afterModify (hcfg : unmarshalMap raw = .ok cfg) :
    inboundsOf (afterModify ioFails (some raw) change) =
      if ioFails then getInbounds cfg else ((change cfg).toOption.map (getInbounds ·.1)).getD (getInbounds cfg) := by
  have hr : inboundsOf (some raw) = getInbounds cfg := by rw [inboundsOf, hcfg, ok_bind]
  unfold afterModify modifyWith
  dsimp only
  rw [hcfg, ok_bind]
  rcases change cfg with e | ⟨cfg', out⟩
  · cases ioFails <;> exact hr
  cases ioFails
  · exact inboundsOf_marshalMap
  · exact hr

theorem inboundsOf_afterModify_congr (hcha : ByInbounds change) (hsa : inboundsOf file = inboundsOf file') :
    inboundsOf (afterModify ioFails file change) = inboundsOf (afterModify ioFails file' change) := by
  by_cases hdec : ∃ raw cfg, file = some raw ∧ unmarshalMap raw = .ok cfg
  · obtain ⟨raw, cfg, hf, hcfg⟩ := hdec
    obtain ⟨raw', cfg', hf', hcfg', hin⟩ := decoded_of_inboundsOf hsa hf hcfg
    rw [hf, hf', inboundsOf_afterModify hcfg, inboundsOf_afterModify hcfg', hin, hcha cfg cfg' hin]
  have hst {file : Option Raw} (hnot : ¬ ∃ raw cfg, file = some raw ∧ unmarshalMap raw = .ok cfg) :
      afterModify ioFails file change = file := by
    rcases file with - | raw
    · rfl
    rcases hcfg : unmarshalMap raw with e | cfg
    · rw [afterModify, modifyWith, hcfg]
      rfl
    · exact absurd ⟨raw, cfg, rfl, hcfg⟩ hnot
  rw [hst hdec, hst, hsa]
  rintro ⟨raw', cfg', hf', hcfg'⟩
  obtain ⟨raw, cfg, hf, hcfg, -⟩ := decoded_of_inboundsOf hsa.symm hf' hcfg'
  exact hdec ⟨raw, cfg, hf, hcfg⟩

theorem option_getInbounds_setInbounds {changed : List RawMap} (hcfg : cfg ≠ none) :
    (setInbounds cfg changed).toOption.map getInbounds = some (.ok changed) := by
  rcases hset : setInbounds cfg changed with e | new
  · rw [setInbounds, if_neg hcfg] at hset
    contradiction
  · exact congrArg some (getInbounds_setInbounds hset)

theorem ne_none_of_mem (hin : getInbounds cfg = .ok ibs) (hib : ib ∈ ibs) : cfg ≠ none := by
  rintro rfl
  cases hin
  simp at hib

/-- A loop over the inbounds that rewrites them. -/
theorem byInbounds_rounds {round : RawMap → Except Failure RawMap} (hin : getInbounds cfg = .ok ibs)
    (hin' : getInbounds cfg' = .ok ibs) (hib : ib ∈ ibs) :
    (ibs.mapM round >>= setInbounds cfg).toOption.map getInbounds =
      (ibs.mapM round >>= setInbounds cfg').toOption.map getInbounds := by
  rcases ibs.mapM round with e | changed
  · rfl
  · rw [ok_bind, ok_bind, option_getInbounds_setInbounds (ne_none_of_mem hin hib),
      option_getInbounds_setInbounds (ne_none_of_mem hin' hib)]

section

variable {x x' : Except Failure RawMap} (h : x.toOption.map getInbounds = x'.toOption.map getInbounds)
include h

theorem toOption_mapError {f : Failure → Failure} :
    (x.mapError f).toOption.map getInbounds = (x'.mapError f).toOption.map getInbounds := by
  rcases x with e | y <;> rcases x' with e' | y' <;> exact h

theorem toOption_pair {out : α} : (x >>= fun cfg => .ok (cfg, out)).toOption.map (getInbounds ·.1) =
      (x' >>= fun cfg => .ok (cfg, out)).toOption.map (getInbounds ·.1) := by
  rcases x with e | y <;> rcases x' with e' | y' <;> exact h

end

theorem byInbounds_placeUser : ByInbounds (placeUser ext user) := by
  intro cfg cfg' hsa
  rcases hin' : getInbounds cfg' with e | ibs
  · rw [placeUser, placeUser, hsa, hin']
    rfl
  have hin : getInbounds cfg = .ok ibs := hsa.trans hin'
  rw [placeUser, placeUser, hin, hin', ok_bind, ok_bind]
  rcases hpay : buildForAllInbounds ext (configToParams user) ibs with e | pay
  · rfl
  simp only [Except.mapError, ok_bind]
  split_ifs with hn
  · rfl
  rw [placeMissing, placeMissing, missingClientPayload, missingClientPayload, hin, hin', ok_bind]
  rcases recordedEmails ibs with e | recorded
  · rfl
  simp only [Except.mapError, ok_bind]
  split_ifs
  · exact congrArg some hsa
  -- a client was built, so there is an inbound
  obtain ⟨tagged, htag⟩ := List.exists_mem_of_ne_nil pay hn
  obtain ⟨ib, hib, -⟩ := of_mem_payload hpay htag
  rw [addUserToInbounds, addUserToInbounds, hin, hin', ok_bind, ok_bind]
  exact toOption_pair (toOption_mapError (byInbounds_rounds hin hin' hib))

theorem byInbounds_dropUser : ByInbounds (dropUser addr) := by
  intro cfg cfg' hsa
  have hexi : userExists cfg addr = userExists cfg' addr := by rw [userExists, userExists, hsa]
  rw [dropUser, dropUser, hexi]
  split_ifs with hfo
  · exact congrArg some hsa
  unfold userExists at hfo
  rcases hin' : getInbounds cfg' with e | ibs
  · simp [hin'] at hfo
  rw [hin', Bool.not_eq_true', Bool.not_eq_false] at hfo
  obtain ⟨ib, hib, -⟩ := List.any_eq_true.1 hfo
  have hin : getInbounds cfg = .ok ibs := hsa.trans hin'
  rw [inboundTagsForUser, inboundTagsForUser, hin, hin', removeUserFromAllInbounds, removeUserFromAllInbounds, hin, hin']
  exact toOption_pair (byInbounds_rounds hin hin' hib)

end Xraytool.Xray

namespace Xraytool.ServerRouting

open Fallible Transition Xray

variable {env : RoutingEnv} {host host' : Host} {m : Machine}

def alone (env : RoutingEnv) (m : Machine) : RoutingEvent → Machine
  | .addUser user fails => (m.addUserLocked env.adapter fails user).1
  | .removeUser address fails => (m.removeUserLocked env.adapter fails address).1
  | _ => m

/-- When the transaction writes the config, the candidate or the backup, the inbounds of the file are still those that
it has read. -/
def WritesFresh (host : Host) : RoutingEvent → Prop
  | .writeCandidate fails => fails = false →
    ∀ tx ∈ host.transaction, inboundsOf host.machine.file = inboundsOf tx.xrayBackup
  | .rollbackAll writeFails _ => writeFails = false →
    ∀ tx ∈ host.transaction, tx.xrayBackup ≠ none → inboundsOf host.machine.file = inboundsOf tx.xrayBackup
  | _ => True

instance (file file' : Option Raw) : Decidable (inboundsOf file = inboundsOf file') := inferInstance

instance (host : Host) (event : RoutingEvent) : Decidable (WritesFresh host event) := by
  cases event <;> dsimp only [WritesFresh] <;> infer_instance

theorem inboundsOf_generate {backup cand : Raw} (h : generate env backup = .ok cand) :
    inboundsOf (some cand) = inboundsOf (some backup) := by
  obtain ⟨root, hro, h⟩ := bind_eq_ok.1 h
  obtain ⟨⟨routing, outbounds⟩, -, h⟩ := bind_eq_ok.1 h
  cases h
  rw [mapError_eq_ok] at hro
  rw [inboundsOf, inboundsOf, hro, ok_bind, unmarshalMap, ok_bind]
  have hget : RawMap.get (some (Assoc.put (Assoc.put (root.getD []) "routing" routing) "outbounds" outbounds)) "inbounds" =
      root.get "inbounds" := by
    rcases root with - | fields <;> simp [RawMap.get, Assoc.lookup_put]
  rw [getInbounds, getInbounds, hget]

/-- The file has the inbounds that the calls alone have left, and the candidate has those of the backup. -/
structure Mirrors (host : Host) (m : Machine) : Prop where
  file : inboundsOf host.machine.file = inboundsOf m.file
  candidate : ∀ tx ∈ host.transaction, ∀ raw ∈ tx.candidateXrayConfig, inboundsOf (some raw) = inboundsOf tx.xrayBackup

variable {m' : Machine} {fails : Faults}

theorem inboundsOf_addUserLocked {env : AdapterEnv} {user : VPNUserConfig}
    (hsa : inboundsOf m.file = inboundsOf m'.file) :
    inboundsOf (m.addUserLocked env fails user).1.file = inboundsOf (m'.addUserLocked env fails user).1.file := by
  rw [file_addUserLocked, file_addUserLocked]
  split_ifs
  · exact hsa
  · exact inboundsOf_afterModify_congr byInbounds_placeUser hsa

theorem inboundsOf_removeUserLocked {env : AdapterEnv} {addr : String} (hsa : inboundsOf m.file = inboundsOf m'.file) :
    inboundsOf (m.removeUserLocked env fails addr).1.file = inboundsOf (m'.removeUserLocked env fails addr).1.file := by
  rw [file_removeUserLocked, file_removeUserLocked]
  split_ifs
  · exact hsa
  · exact inboundsOf_afterModify_congr byInbounds_dropUser hsa

theorem candidate_prepare {file : Option Raw} {hasN preflightFails : Bool} {tx : Transaction}
    (htx : tx ∈ prepare env file hasN preflightFails) :
    ∀ raw ∈ tx.candidateXrayConfig, inboundsOf (some raw) = inboundsOf tx.xrayBackup := by
  unfold prepare at htx
  split at htx
  · next backup =>
    rcases hgen : generate env backup with e | cand
    · simp [hgen] at htx
    rw [hgen] at htx
    split_ifs at htx
    · simp at htx
    cases htx
    rintro raw ⟨⟩
    exact inboundsOf_generate hgen
  · cases htx
    simp

theorem mirrors_step {event : RoutingEvent} (h : Mirrors host m) (hfr : WritesFresh host event)
    (hs : routingStep env host event = some host') : Mirrors host' (alone env m event) := by
  cases event with
  | addUser user fails =>
    cases hs
    exact ⟨inboundsOf_addUserLocked h.file, h.candidate⟩
  | removeUser addr fails =>
    cases hs
    exact ⟨inboundsOf_removeUserLocked h.file, h.candidate⟩
  | apply hasN preflightFails =>
    dsimp only [routingStep] at hs
    split at hs
    · cases hs
      exact ⟨h.file, fun tx htx => candidate_prepare htx⟩
    · contradiction
  | saveRouting fails =>
    dsimp only [routingStep] at hs
    split at hs
    · next backup cand htx =>
      have hcan := h.candidate _ htx
      split_ifs at hs
      · cases hs
        exact ⟨h.file, fun tx htx => by cases htx; exact hcan⟩
      cases hs
      refine ⟨h.file, fun tx htx => ?_⟩
      obtain ⟨raw, hraw, rfl⟩ := Option.map_eq_some_iff.1 htx
      exact hcan
    · contradiction
  | writeCandidate fails =>
    dsimp only [routingStep] at hs
    split at hs
    · next backup cand htx =>
      have hcan := h.candidate _ htx
      split_ifs at hs with hfa
      · cases hs
        exact ⟨h.file, fun tx htx => by cases htx; exact hcan⟩
      cases hs
      have hbac := hfr (by simpa using hfa) _ htx
      exact ⟨(hcan cand rfl).trans (hbac.symm.trans h.file), fun tx htx => by cases htx; exact hcan⟩
    · contradiction
  | restartXray fails =>
    dsimp only [routingStep] at hs
    split at hs
    · next backup cand htx =>
      have hcan := h.candidate _ htx
      split_ifs at hs
      · cases hs
        exact ⟨h.file, fun tx htx => by cases htx; exact hcan⟩
      · cases hs
        exact ⟨h.file, fun tx htx => by cases htx⟩
    · contradiction
  | rollbackAll writeFails restartFails =>
    dsimp only [routingStep] at hs
    split at hs
    · next backup cand htx =>
      cases hs
      refine ⟨?_, fun tx htx => by cases htx⟩
      have hf : inboundsOf (if backup = none ∨ writeFails = true then host.machine.file else backup) =
          inboundsOf m.file := by
        split_ifs with hke
        · exact h.file
        · rw [not_or] at hke
          exact (hfr (by simpa using hke.2) _ htx hke.1).symm.trans h.file
      cases restartFails <;> exact hf
    · contradiction

theorem routing_keeps_clients (env : RoutingEnv) (host host' : Host) (tr : List RoutingEvent)
    (hidle : host.transaction = none) (h : Run (Guarded WritesFresh (stepsTo (routingStep env))) host tr host') :
    inboundsOf host'.machine.file = inboundsOf (tr.foldl (alone env) host.machine).file := by
  have hin : Mirrors host host.machine := ⟨rfl, fun tx htx => by rw [hidle] at htx; contradiction⟩
  exact (h.follows Mirrors (alone env) hin fun _ _ _ _ => mirrors_step).file

/-! A file with one client and a transaction that leaves the two sections empty. -/

def emptySections : RoutingEnv := ⟨vlessEnv, fun _ => .ok (.obj [], .arr [])⟩

def oneClientHost : Host := ⟨.started (vlessConfig [.obj [("email", .str "a"), ("id", .str "id-a")]]), none⟩

def emails (file : Option Raw) : List (List String) :=
  ((inboundsOf file).toOption.getD []).map fun ib => (((getClients ib).toOption.join).getD []).map email

/-- Calls before the backup and after the last write, and one between them while the writing of the rules fails and the
backup cannot be written. -/
theorem routing_keeps_clients_around_calls : ∃ host,
    Run (Guarded WritesFresh (stepsTo (routingStep emptySections))) oneClientHost
      [.addUser otherUser noFaults, .apply true false, .saveRouting false, .writeCandidate false,
        .removeUser "a" noFaults, .restartXray false, .apply true false, .removeUser "z" noFaults, .saveRouting true,
        .rollbackAll true false] host ∧ emails host.machine.file = [[]] := by
  refine Run.exists_of_guardedExec_imp (P := fun _ => True) (by decide +kernel) fun host hrun _ => ?_
  rw [emails, routing_keeps_clients emptySections oneClientHost host _ rfl hrun]
  decide +kernel

/-- The client removed between the backup and the writing of the candidate is in the file again. -/
theorem routing_resurrects_client : ∃ host,
    Run (stepsTo (routingStep emptySections)) oneClientHost [.apply true false, .removeUser "a" noFaults,
      .saveRouting false, .writeCandidate false, .restartXray false] host ∧ host.transaction = none ∧
    emails host.machine.file = [["a"]] ∧
    emails (alone emptySections oneClientHost.machine (.removeUser "a" noFaults)).file = [[]] :=
  Run.exists_of_exec (by decide +kernel)

/-! A failed apply writes back what it has read. A rule file that is new stays, and so does what was written to a file
under the trimmed name of a server whose name in the config has spaces around it. -/

namespace Manager

open Fallible List

variable {m : Manager} {fails : ApplyOp → Bool} {configs : List ServerRoutingConfig} {files : Files}
  {configPath targetNodeName : String} {entry : String × String}

theorem rollbackAll_apply {backups : List (String × String)} (h : ∀ entry ∈ backups, files entry.1 = some entry.2)
    (files' : Files) (path : String) :
    rollbackAll backups files' path = if path ∈ backups.map Prod.fst then files path else files' path := by
  induction backups generalizing files' with
  | nil => rfl
  | cons entry backups ih =>
    have hre := ih (fun e he => h e (mem_cons_of_mem _ he)) (files'.write entry.1 entry.2)
    rw [rollbackAll, foldl_cons, map_cons]
    refine hre.trans ?_
    by_cases hla : path ∈ backups.map Prod.fst
    · rw [if_pos hla, if_pos (mem_cons_of_mem _ hla)]
    rw [if_neg hla, Files.write, Function.update_apply]
    by_cases hpa : path = entry.1
    · rw [if_pos hpa, if_pos (hpa ▸ mem_cons_self), hpa, h entry mem_cons_self]
    · rw [if_neg hpa, if_neg (by simp only [mem_cons, hpa, hla, or_self, not_false_eq_true])]

/-- The first of the config path and the fallbacks that exists. -/
def xrayConfig (configPath : String) (files : Files) : Option String :=
  (configPath :: fallbackPaths).find? fun path => (files path).isSome

theorem xrayBackup_eq : xrayBackup configPath files =
    (xrayConfig configPath files).bind fun path => (files path).map (path, ·) := by
  have hfind (paths : List String) (h : files configPath = none) :
      (paths.filter (· ≠ configPath)).findSome? (fun path => (files path).map (path, ·)) =
        (paths.find? fun path => (files path).isSome).bind fun path => (files path).map (path, ·) := by
    induction paths with
    | nil => rfl
    | cons path paths ih =>
      by_cases hpa : path = configPath
      · simpa [hpa, h] using ih
      cases hf : files path with
      | none => simpa [hpa, hf] using ih
      | some _ => simp [hpa, hf]
  unfold xrayBackup xrayConfig
  cases h : files configPath with
  | none => simp only [findSome?_cons, find?_cons, h, Option.map_none, Option.isSome_none, hfind _ h]
  | some text => simp [h]

/-- The rollback writes back a file that existed, under the name of a config as it is given or as the Xray config. -/
def Restored (m : Manager) (configs : List ServerRoutingConfig) (configPath : String) (files : Files)
    (path : String) : Prop :=
  files path ≠ none ∧ ((∃ cfg ∈ configs, m.serverConfigPath cfg.server = path) ∨
    xrayConfig configPath files = some path ∧ files path ≠ some "")

theorem mem_backups : entry ∈ m.backups configs configPath files ↔
    files entry.1 = some entry.2 ∧ ((∃ cfg ∈ configs, m.serverConfigPath cfg.server = entry.1) ∨
      xrayConfig configPath files = some entry.1 ∧ entry.2 ≠ "") := by
  obtain ⟨path, text⟩ := entry
  simp only [backups, fileBackups, xrayBackup_eq, mem_append, mem_filterMap, Option.mem_toList, Option.filter_eq_some_iff,
    Option.bind_eq_some_iff, Option.map_eq_some_iff, Prod.mk.injEq, decide_eq_true_eq]
  constructor
  · rintro (⟨cfg, hcfg, _, hf, rfl, rfl⟩ | ⟨⟨_, hxr, _, hf, rfl, rfl⟩, hne⟩)
    · exact ⟨hf, .inl ⟨cfg, hcfg, rfl⟩⟩
    · exact ⟨hf, .inr ⟨hxr, hne⟩⟩
  · rintro ⟨hf, ⟨cfg, hcfg, rfl⟩ | ⟨hxr, hne⟩⟩
    · exact .inl ⟨cfg, hcfg, text, hf, rfl, rfl⟩
    · exact .inr ⟨⟨path, hxr, text, hf, rfl, rfl⟩, hne⟩

theorem restored_iff {path : String} :
    path ∈ (m.backups configs configPath files).map Prod.fst ↔ m.Restored configs configPath files path := by
  simp only [mem_map, Prod.exists, exists_and_right, exists_eq_right, mem_backups, Restored]
  cases files path <;> simp

/-- The configs whose rule files are written, those before the first write that fails. -/
def attempted (fails : ApplyOp → Bool) (i : Nat) (configs : List ServerRoutingConfig) : List ServerRoutingConfig :=
  ((configs.zipIdx i).takeWhile fun e => !fails (.writeRules e.2)).map Prod.fst

/-- The last text that is written to a path. -/
def lastText (m : Manager) (configs : List ServerRoutingConfig) (path : String) : Option String :=
  (configs.reverse.find? fun cfg => m.rulesPath cfg = path).map m.rulesText

theorem saveRoutingLocked_apply {i : Nat} {path : String} : (m.saveRoutingLocked fails i configs files).1 path =
    (m.lastText (attempted fails i configs) path).or (files path) := by
  induction configs generalizing i files with
  | nil => rfl
  | cons cfg configs ih =>
    rw [saveRoutingLocked, attempted, zipIdx_cons, takeWhile_cons]
    by_cases hfa : fails (.writeRules i) = true
    · simp [hfa, lastText]
    rw [if_neg hfa, if_pos (by simpa using hfa), ih, map_cons, ← attempted, Files.write, Function.update_apply]
    unfold lastText
    rw [reverse_cons, find?_append, Option.map_or, Option.or_assoc]
    congr 1
    by_cases hpa : path = m.rulesPath cfg
    · simp [hpa]
    · simp [hpa, Ne.symm hpa]

theorem restored_of_candidate {path text : String}
    (h : m.prepare configs configPath targetNodeName files = .ok (some (path, text))) :
    path ∈ (m.backups configs configPath files).map Prod.fst := by
  obtain ⟨-, -, h⟩ := bind_eq_ok.1 h
  unfold candidate at h
  split at h
  · next node path' backup _ hbac =>
    simp only [bind_eq_ok] at h
    obtain ⟨generated, hgen, -, -, h⟩ := h
    have hne : backup ≠ "" := by
      rintro rfl
      have hem := m.generate_empty node.server node.rules
      rw [hgen] at hem
      cases hem
    split_ifs at h
    · cases h
    cases h
    refine mem_map.2 ⟨(path, backup), mem_append_right _ ?_, rfl⟩
    rw [hbac, Option.filter_some, if_pos (decide_eq_true hne)]
    exact List.mem_singleton.2 rfl
  · cases h

/-- The checks before the first write pass: the rules are valid, and the config that is generated for the node from the
Xray config is fit to run. -/
def Passes (m : Manager) (configs : List ServerRoutingConfig) (configPath targetNodeName : String)
    (files : Files) : Prop :=
  m.validateRules configs = .ok () ∧ ∀ node ∈ m.nodeConfig targetNodeName configs,
    ∀ path ∈ xrayConfig configPath files, ∀ text ∈ files path,
      ∃ generated, m.generate node.server node.rules text = .ok generated ∧ m.preflightCheckXray generated = .ok ()

theorem passes_iff : m.Passes configs configPath targetNodeName files ↔
    ∃ candidate, m.prepare configs configPath targetNodeName files = .ok candidate := by
  unfold Passes prepare candidate
  rw [xrayBackup_eq]
  rcases m.validateRules configs with e | ⟨⟩
  · simp [bind, Except.bind]
  rcases m.nodeConfig targetNodeName configs with _ | node
  · simp [ok_bind]
  rcases xrayConfig configPath files with _ | path
  · simp [ok_bind]
  rcases hf : files path with _ | text
  · simp [hf, ok_bind]
  rcases hgen : m.generate node.server node.rules text with e | generated
  · simp [hf, hgen, bind, Except.bind]
  rcases hpf : m.preflightCheckXray generated with e | ⟨⟩ <;>
    simp [hf, hgen, hpf, bind, Except.bind, Except.mapError, pure, Except.pure]

/-- The rollback is complete if it covers the files that were changed. -/
theorem rollbackAll_eq_iff {saved files' : Files} {written : String → Option String}
    (hsav : ∀ path, saved path = (written path).or (files path))
    (hsa : ∀ path ∉ (m.backups configs configPath files).map Prod.fst, files' path = saved path) :
    rollbackAll (m.backups configs configPath files) files' = files ↔
      ∀ path text, written path = some text → files path = some text ∨ m.Restored configs configPath files path := by
  have hun (path : String) : rollbackAll (m.backups configs configPath files) files' path =
      if path ∈ (m.backups configs configPath files).map Prod.fst then files path else files' path :=
    rollbackAll_apply (fun _ he => (mem_backups.1 he).1) files' path
  simp only [← restored_iff]
  constructor
  · intro hsam path text hwri
    refine or_iff_not_imp_right.2 fun hn => ?_
    rw [← congrFun hsam path, hun, if_neg hn, hsa path hn, hsav, hwri, Option.some_or]
  intro h
  funext path
  rw [hun]
  split_ifs with hbac
  · rfl
  rw [hsa path hbac, hsav]
  cases hwri : written path with
  | none => rfl
  | some text => exact ((h path text hwri).resolve_right hbac).symm

/-- A call that fails leaves every file as it was exactly if a check failed before the first write, or each rule file it
has written was restored or has the text that was there. -/
theorem routing_rolled_back_iff (m : Manager) (fails : ApplyOp → Bool) (configs : List ServerRoutingConfig)
    (configPath targetNodeName : String) (files : Files) {e : Err}
    (herr : (m.applyTransactionWithNode fails configs configPath targetNodeName files).2 = .error e) :
    (m.applyTransactionWithNode fails configs configPath targetNodeName files).1 = files ↔
      (m.Passes configs configPath targetNodeName files → ∀ path text,
        m.lastText (attempted fails 0 configs) path = some text →
          files path = some text ∨ m.Restored configs configPath files path) := by
  have hsav (path : String) : (m.saveRoutingLocked fails 0 configs files).1 path =
      (m.lastText (attempted fails 0 configs) path).or (files path) := saveRoutingLocked_apply
  rw [passes_iff]
  unfold applyTransactionWithNode at *
  rcases hpre : m.prepare configs configPath targetNodeName files with e' | candidate
  · simp
  rw [hpre] at herr
  simp only [Except.ok.injEq, exists_eq', forall_const]
  dsimp only at herr
  split at herr
  · next hsa =>
    rw [hsa] at hsav
    exact rollbackAll_eq_iff hsav fun _ _ => rfl
  · cases herr
  next path text hsa =>
  rw [hsa] at hsav
  split_ifs at herr ⊢
  · exact rollbackAll_eq_iff hsav fun _ _ => rfl
  refine rollbackAll_eq_iff hsav fun other ho => Function.update_of_ne ?_ _ _
  rintro rfl
  exact ho (restored_of_candidate hpre)

end Manager

/-! One server, whose config is copied. -/

def copyManager : Manager where
  serverConfigPath name := name ++ ".json"
  masterName := "master"
  validateRules _ := .ok ()
  generate _ _ backup := if backup = "" then .error .storage else .ok ("new " ++ backup)
  generate_empty _ _ := rfl
  preflightCheckXray _ := .ok ()
  marshal cfg := "rules of " ++ cfg.server

def routingFiles (rules : Option String) : Files
  | "a.json" => rules
  | "config.json" => some "old"
  | _ => none

def applied (rules : Option String) (server : String) : Files × Except Err Unit :=
  copyManager.applyTransactionWithNode (· == .restart) [{ server := server }] "config.json" server (routingFiles rules)

theorem routing_rolled_back_iff_backedUp :
    (applied (some "text") "a").2.isOk = false ∧ (applied (some "text") "a").1 = routingFiles (some "text") := by
  refine ⟨rfl, (Manager.routing_rolled_back_iff copyManager _ _ _ _ _ rfl).2 fun _ path text hte => .inr ?_⟩
  obtain ⟨cfg, hcfg, -⟩ := Option.map_eq_some_iff.1 hte
  obtain rfl : cfg = { server := "a" } := List.mem_singleton.1 (List.mem_of_find?_eq_some hcfg)
  have hpa := List.find?_some hcfg
  obtain rfl : copyManager.rulesPath { server := "a" } = path := of_decide_eq_true hpa
  exact ⟨by decide, .inl ⟨_, List.mem_singleton_self _, by decide⟩⟩

/-- The restart of the service fails: the rule file of a new server stays, and so does what was written under the
trimmed name. -/
theorem routing_left_behind :
    (applied none "a").2.isOk = false ∧ routingFiles none "a.json" = none ∧
      (applied none "a").1 "a.json" = some "rules of a" ∧
    (applied (some "text") "a ").2.isOk = false ∧ routingFiles (some "text") "a.json" = some "text" ∧
      (applied (some "text") "a ").1 "a.json" = some "rules of a" := by decide

/-! The outbound of a relay is found by its tag, ignoring case, under the name of the server, alone or behind `relay_`
or `relay-`. So two servers may share one. -/

open List Option

def ownNames (target : String) : List String :=
  [trimSpace target, "relay_" ++ trimSpace target, "relay-" ++ trimSpace target]

def OwnTag (tags : List String) (target tag : String) : Prop :=
  tag ∈ tags ∧ ∃ name ∈ ownNames target, equalFold tag name

/-- A target that is a server, without a template file and with an outbound of its own. -/
structure Relayed (templateTag : String → Option String) (tags : List String) (target : String) : Prop where
  server : toLower (trimSpace target) ∉ specialTargets
  file : templateTag (trimSpace target) = none
  own : ∃ tag, OwnTag tags target tag

/-- The first of a server's names that is live, as it is compared. -/
def liveName (tags : List String) (target : String) : Option String :=
  ((ownNames target).find? fun name => tags.any (equalFold · name)).map foldCase

section

variable {order : String → List String} {tags : List String}

/-- The candidates before a live one find nothing, in any order of the map. -/
theorem findSome_live {names rest : List String} {name : String} (hor : ∀ c, (order c).Perm tags)
    (hli : names.find? (fun n => tags.any (equalFold · n)) = some name) :
    ∃ tag, (order name).find? (equalFold · name) = some tag ∧
      (names ++ rest).findSome? (fun c => (order c).find? (equalFold · c)) = some tag := by
  induction names with
  | nil => cases hli
  | cons c names ih =>
    rw [cons_append, findSome?_cons]
    have hany : ((order c).find? (equalFold · c)).isSome = tags.any (equalFold · c) := isSome_find?.trans (hor c).any_eq
    rcases hfi : (order c).find? (equalFold · c) with _ | tag <;> rw [hfi] at hany
    · rw [find?_cons, ← hany] at hli
      exact ih hli
    rw [find?_cons, ← hany] at hli
    cases hli
    exact ⟨tag, hfi, rfl⟩

/-- The result is the first tag, in the map's order, that has the live name. -/
theorem Relayed.resolve {templateTag : String → Option String} {target : String}
    (h : Relayed templateTag tags target) (hor : ∀ c, (order c).Perm tags) :
    ∃ name ∈ ownNames target, liveName tags target = some (foldCase name) ∧
      (order name).find? (equalFold · name) = some (resolveOutboundTagWithExisting templateTag order target) := by
  obtain ⟨tag, htag, name, hna, heq⟩ := h.own
  have hso : ((ownNames target).find? fun n => tags.any (equalFold · n)).isSome :=
    find?_isSome.2 ⟨name, hna, any_eq_true.2 ⟨tag, htag, heq⟩⟩
  obtain ⟨live, hli⟩ := isSome_iff_exists.1 hso
  obtain ⟨found, hfo, hres⟩ := findSome_live hor hli
  refine ⟨live, mem_of_find?_eq_some hli, congrArg (Option.map foldCase) hli, hfo.trans ?_⟩
  have hcan : (candidates (trimSpace target)).findSome? (fun c => (order c).find? (equalFold · c)) = some found := hres
  simp only [resolveOutboundTagWithExisting, if_neg h.server, h.file, hcan, map_none, filter_none]

end

/-- Two servers with outbounds of their own are given different tags of such outbounds, in every order of the map,
exactly if their live names differ in more than the case of letters. -/
theorem relays_apart_iff (templateTag : String → Option String) (tags : List String) (a b : String)
    (ha : Relayed templateTag tags a) (hb : Relayed templateTag tags b) :
    (∀ orderA orderB : String → List String, (∀ c, (orderA c).Perm tags) → (∀ c, (orderB c).Perm tags) →
      let tagA := resolveOutboundTagWithExisting templateTag orderA a
      let tagB := resolveOutboundTagWithExisting templateTag orderB b
      OwnTag tags a tagA ∧ OwnTag tags b tagB ∧ tagA ≠ tagB) ↔ liveName tags a ≠ liveName tags b := by
  constructor
  · intro h hsa
    obtain ⟨nameA, -, hna, hfi⟩ := ha.resolve fun _ => .refl tags
    obtain ⟨nameB, -, hnam, hfin⟩ := hb.resolve fun _ => .refl tags
    have hup : foldCase nameA = foldCase nameB := some_inj.1 (hna.symm.trans (hsa.trans hnam))
    simp only [equalFold, hup] at hfi hfin
    exact (h _ _ (fun _ => .refl tags) fun _ => .refl tags).2.2 (some_inj.1 (hfi.symm.trans hfin))
  · intro hne orderA orderB hord horde
    obtain ⟨nameA, hme, hna, hfi⟩ := ha.resolve hord
    obtain ⟨nameB, hmem, hnam, hfin⟩ := hb.resolve horde
    have heqA := find?_some hfi
    have heqB := find?_some hfin
    refine ⟨⟨(hord _).mem_iff.1 (mem_of_find?_eq_some hfi), nameA, hme, heqA⟩,
      ⟨(horde _).mem_iff.1 (mem_of_find?_eq_some hfin), nameB, hmem, heqB⟩, fun hta => hne ?_⟩
    rw [hta, equalFold, beq_iff_eq] at heqA
    rw [equalFold, beq_iff_eq] at heqB
    rw [hna, hnam, ← heqA, ← heqB]

theorem relays_apart_iff_two : resolveOutboundTagWithExisting (fun _ => none) (fun _ => ["relay-NL", "de"]) "nl" ≠
    resolveOutboundTagWithExisting (fun _ => none) (fun _ => ["de", "relay-NL"]) "de" := by
  have hnl : Relayed (fun _ => none) ["relay-NL", "de"] "nl" :=
    ⟨by decide, rfl, "relay-NL", by decide, "relay-nl", by decide⟩
  have hde : Relayed (fun _ => none) ["relay-NL", "de"] "de" := ⟨by decide, rfl, "de", by decide, "de", by decide⟩
  exact ((relays_apart_iff _ _ _ _ hnl hde).2 (by decide) _ _ (fun _ => .refl _) fun _ => .swap _ _ _).2.2

/-- A server with the name of another one's relay. -/
theorem relays_shared :
    let tags := ["relay_nl", "relay_relay_nl"]
    OwnTag tags "nl" "relay_nl" ∧ OwnTag tags "relay_nl" "relay_relay_nl" ∧
      resolveOutboundTagWithExisting (fun _ => none) (fun _ => tags) "nl" = "relay_nl" ∧
      resolveOutboundTagWithExisting (fun _ => none) (fun _ => tags) "relay_nl" = "relay_nl" :=
  ⟨⟨by decide, "relay_nl", by decide⟩, ⟨by decide, "relay_relay_nl", by decide⟩, by decide, by decide⟩

end Xraytool.ServerRouting
