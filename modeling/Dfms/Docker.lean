/-
# `DockerApp.run`: the volume bindings

`DockerApp.run` (`dockerapp.py`, lines 274-302) binds every filesystem-based input
(`FileDROP` or `DirectoryContainer`) at its full path and every filesystem-based output at
its directory, both under `DFMS_ROOT` inside the container, and then adds the bindings given
at creation.  The list goes to `create_host_config`.  A `FileDROP`'s path is its `dirname`
argument (by default `/tmp/sdp_dfms`), `/`, its oid, `___` and its uid (`drop.py`, lines
831-856).

Nothing removes repetitions from the list, although the `chown` prologue does so for the
same directories (`set(...)`, lines 327-328):

* two outputs in one directory, or a `DirectoryContainer` input at an output's directory,
  give the same binding twice (`outputs_in_one_directory_bound_twice`);
* for every application, any two `FileDROP` outputs created with the same `dirname` do
  (`file_outputs_sharing_dirname_bound_twice`), because `dirname` drops the file name
  (`dirname_append_file`).
-/
import Mathlib.Data.List.Nodup

namespace Dfms.Docker

/-- `DFMS_ROOT`, where the host's filesystem is bound inside the container. -/
def dfmsRoot : String := "/dfms_root"

/-- `posixpath.dirname`: the path up to its last `/`, stripped of trailing slashes unless it
is only slashes. -/
def dirname (p : String) : String :=
  let head := (p.toList.reverse.dropWhile (· != '/')).reverse
  if head ≠ [] ∧ !head.all (· == '/') then String.mk (head.reverse.dropWhile (· == '/')).reverse
  else String.mk head

/-- The classes `run()` tells apart (`isFSBased`): `FileDROP` and `DirectoryContainer` are
bound as volumes, any other DROP is passed by its `dataURL`. -/
inductive IOClass
  /-- A `FileDROP` created with `dirname` `root` (already absolute) and oid `oid`. -/
  | fileDrop (root oid : String)
  /-- A `DirectoryContainer` whose absolute `dirname` is `path`. -/
  | directoryContainer (path : String)
  /-- Any other DROP. -/
  | other
  deriving DecidableEq, Repr

/-- An input or output of the application. -/
structure IODrop where
  uid : String
  cls : IOClass
  deriving DecidableEq, Repr

/-- `FileDROP.path`: `self._root + os.sep + self._oid + '___' + self.uid`. -/
def fileDropPath (root oid uid : String) : String := root ++ "/" ++ oid ++ "___" ++ uid

/-- The `path` of a filesystem-based DROP, `none` for the others. -/
def IODrop.fsPath : IODrop → Option String
  | ⟨uid, .fileDrop root oid⟩ => some (fileDropPath root oid uid)
  | ⟨_, .directoryContainer path⟩ => some path
  | ⟨_, .other⟩ => none

/-- What `run()` reads of a `DockerApp`: `_inputs` and `_outputs`, ordered dicts keyed by
uid, and `_additionalBindings`, a dict from host path to container path. -/
structure DockerApp where
  inputs : List IODrop
  outputs : List IODrop
  additionalBindings : List (String × String)
  inputs_nodup : (inputs.map IODrop.uid).Nodup
  outputs_nodup : (outputs.map IODrop.uid).Nodup
  hostPaths_nodup : (additionalBindings.map Prod.fst).Nodup

/-- The binding of an input at `path`: `i.path + ":" + dockerInputs[uid].path`. -/
def inputBinding (path : String) : String := path ++ ":" ++ (dfmsRoot ++ path)

/-- The binding of an output at `path`, up to its directory:
`os.path.dirname(o.path) + ":" + os.path.dirname(dockerOutputs[uid].path)`. -/
def outputBinding (path : String) : String := dirname path ++ ":" ++ dirname (dfmsRoot ++ path)

/-- `binds`, the list `run()` passes to `create_host_config`.  The comprehensions run over
plain dicts, whose order may differ from `_inputs`'s; no binding and no count of one
depends on it. -/
def DockerApp.binds (app : DockerApp) : List String :=
  (app.inputs.filterMap IODrop.fsPath).map inputBinding ++
    (app.outputs.filterMap IODrop.fsPath).map outputBinding ++
    app.additionalBindings.map fun b => b.1 ++ ":" ++ b.2

/-- **Outputs in one directory are bound twice.**  Two `FileDROP` outputs created with the
default `dirname` each bind `/tmp/sdp_dfms`; a `DirectoryContainer` input at `/data` and a
`FileDROP` output created in `/data` both bind `/data`. -/
theorem outputs_in_one_directory_bound_twice :
    (⟨[], [⟨"a", .fileDrop "/tmp/sdp_dfms" "1"⟩, ⟨"b", .fileDrop "/tmp/sdp_dfms" "2"⟩], [],
        by decide, by decide, by decide⟩ : DockerApp).binds =
      ["/tmp/sdp_dfms:/dfms_root/tmp/sdp_dfms", "/tmp/sdp_dfms:/dfms_root/tmp/sdp_dfms"] ∧
    (⟨[⟨"d", .directoryContainer "/data"⟩], [⟨"a", .fileDrop "/data" "1"⟩], [],
        by decide, by decide, by decide⟩ : DockerApp).binds =
      ["/data:/dfms_root/data", "/data:/dfms_root/data"] := by
  constructor <;> decide

/-! ## Every application -/

/-- **`dirname` drops a file name**: a last component without `/` does not change it. -/
theorem dirname_append_file (x : String) {n : String} (hn : '/' ∉ n.toList) :
    dirname (x ++ "/" ++ n) = dirname (x ++ "/") := by
  have h : (x ++ "/" ++ n).toList.reverse.dropWhile (· != '/') =
      (x ++ "/").toList.reverse.dropWhile (· != '/') := by
    have hrev : (x ++ "/" ++ n).toList.reverse = n.toList.reverse ++ (x ++ "/").toList.reverse := by
      simp only [String.toList, String.data_append, List.reverse_append, List.append_assoc]
    rw [hrev, List.dropWhile_append_of_pos]
    intro c hc
    simpa using fun h : c = '/' => hn (h ▸ List.mem_reverse.1 hc)
  simp only [dirname, h]

example : dirname "/tmp/sdp_dfms/1___a" = "/tmp/sdp_dfms" ∧ dirname "a" = "" ∧
    dirname "//a" = "//" := by decide

theorem pair_sublist_of_mem {α : Type} {l : List α} {a b : α} (ha : a ∈ l) (hb : b ∈ l)
    (hab : a ≠ b) : List.Sublist [a, b] l ∨ List.Sublist [b, a] l := by
  induction l with
  | nil => cases ha
  | cons x l ih =>
    rcases List.mem_cons.1 ha with rfl | ha' <;> rcases List.mem_cons.1 hb with rfl | hb'
    · exact absurd rfl hab
    · exact .inl ((List.singleton_sublist.2 hb').cons₂ a)
    · exact .inr ((List.singleton_sublist.2 ha').cons₂ b)
    · exact (ih ha' hb').imp (·.cons x) (·.cons x)

/-- A `FileDROP` output whose oid and uid hold no `/` is bound at the directory it was created
in. -/
theorem outputBinding_fileDrop {o : IODrop} {root oid : String} (hc : o.cls = .fileDrop root oid)
    (hoid : '/' ∉ oid.toList) (huid : '/' ∉ o.uid.toList) :
    o.fsPath.map outputBinding =
      some (dirname (root ++ "/") ++ ":" ++ dirname (dfmsRoot ++ root ++ "/")) := by
  obtain ⟨uid, _⟩ := o
  subst hc
  have hn : '/' ∉ (oid ++ "___" ++ uid).toList := by
    simp only [String.toList, String.data_append, List.mem_append, not_or]
    exact ⟨⟨hoid, by decide⟩, huid⟩
  have hp : fileDropPath root oid uid = root ++ "/" ++ (oid ++ "___" ++ uid) := by
    simp only [fileDropPath, String.append_assoc]
  have hq : dfmsRoot ++ fileDropPath root oid uid =
      dfmsRoot ++ root ++ "/" ++ (oid ++ "___" ++ uid) := by
    simp only [fileDropPath, String.append_assoc]
  simp only [IODrop.fsPath, Option.map_some', outputBinding]
  rw [hq, hp, dirname_append_file _ hn, dirname_append_file _ hn]

/-- Two outputs bound at one place, in either order, put that binding twice into `binds`. -/
theorem binds_not_nodup_of_outputs {app : DockerApp} {a b : IODrop} {x : String}
    (hab : List.Sublist [a, b] app.outputs ∨ List.Sublist [b, a] app.outputs)
    (ha : a.fsPath.map outputBinding = some x) (hb : b.fsPath.map outputBinding = some x) :
    ¬ app.binds.Nodup := by
  obtain ⟨pa, hpa, hax⟩ := Option.map_eq_some'.1 ha
  obtain ⟨pb, hpb, hbx⟩ := Option.map_eq_some'.1 hb
  have hs : List.Sublist [x, x] ((app.outputs.filterMap IODrop.fsPath).map outputBinding) := by
    rcases hab with h | h <;>
      simpa [hpa, hpb, hax, hbx] using (h.filterMap IODrop.fsPath).map outputBinding
  intro hnd
  simpa using (hnd.sublist ((List.sublist_append_right _ _).trans
    (List.sublist_append_left _ _))).sublist hs

/-- **Two `FileDROP` outputs created with one `dirname` are bound twice**, in every
application, whatever its other inputs, outputs and additional bindings, when their oids
and uids hold no `/`. -/
theorem file_outputs_sharing_dirname_bound_twice (app : DockerApp) {o₁ o₂ : IODrop}
    (h₁ : o₁ ∈ app.outputs) (h₂ : o₂ ∈ app.outputs) (hne : o₁.uid ≠ o₂.uid)
    {root oid₁ oid₂ : String} (hc₁ : o₁.cls = .fileDrop root oid₁)
    (hc₂ : o₂.cls = .fileDrop root oid₂)
    (hslash : ∀ s ∈ [oid₁, o₁.uid, oid₂, o₂.uid], '/' ∉ s.toList) : ¬ app.binds.Nodup :=
  binds_not_nodup_of_outputs (pair_sublist_of_mem h₁ h₂ fun h => hne (h ▸ rfl))
    (outputBinding_fileDrop hc₁ (hslash _ (by simp)) (hslash _ (by simp)))
    (outputBinding_fileDrop hc₂ (hslash _ (by simp)) (hslash _ (by simp)))

/-- The two outputs of `outputs_in_one_directory_bound_twice`, with oids 1 and 2. -/
theorem file_outputs_sharing_dirname_bound_twice_default :
    ¬ (⟨[], [⟨"a", .fileDrop "/tmp/sdp_dfms" "1"⟩, ⟨"b", .fileDrop "/tmp/sdp_dfms" "2"⟩], [],
        by decide, by decide, by decide⟩ : DockerApp).binds.Nodup :=
  @file_outputs_sharing_dirname_bound_twice _ ⟨"a", .fileDrop "/tmp/sdp_dfms" "1"⟩
    ⟨"b", .fileDrop "/tmp/sdp_dfms" "2"⟩ (by simp) (by simp) (by decide) "/tmp/sdp_dfms" "1" "2"
    rfl rfl (by decide)

end Dfms.Docker
