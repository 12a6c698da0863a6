/-
# `DockerApp.initialize`: the arguments, the additional bindings and the image

`DockerApp.initialize` (`dockerapp.py`, lines 188-251) reads its keyword arguments with
`_getArg` (`drop.py`, lines 216-222): `image` and `command` must be given and non-empty,
`user` defaults to `None`, `ensureUserAndSwitch` to `user is None` and `removeContainer` to
`True`.  Each string of `additionalBindings` is `host:container`, or one path bound at the
same place inside the container; its host path must exist, and it is stored in the dict
`_additionalBindings`, which `run()` turns back into `host:container` strings
(`DockerApp.binds`, `Docker.lean`).  Last, a Docker client is built from the user's
settings, and the image is looked up among those the daemon has and pulled when missing.

The Docker side is an argument (`DockerEnv`): which of the client calls raise, and what the
daemon lists, each image by its `RepoTags`.

* `parseBinding_round_trip`: a binding string is accepted exactly when it holds at most one
  `:`, and then it is split at it and printed back by `run()` as it was given (a binding
  with a Docker mode suffix, `/a:/b:ro`, raises `ValueError`);
* `ensureImage_ok_iff`: the client steps return exactly when the client is built, the
  daemon lists its images, and either an image carries the tag with every image listed
  before it tagged, or none carries it and the pull succeeds; an image listed with
  `RepoTags` `None` before any image carrying the tag raises `TypeError`;
* `initialize_ok_iff`: `initialize` returns exactly when the image and the command are
  non-empty, every binding is accepted and names an existing host path, and the client
  steps return;
* `initialize_error`: otherwise the first check that fails, in the source's order, raises,
  and its message names what failed; with every argument accepted, a client step raised;
* `initialize_stored`: the dict then maps a host path to a container path exactly when the
  LAST binding naming the host path says so;
* `initialized_binds`: so the bindings `run()` passes for such an application are its
  inputs' and outputs' and exactly the given additional bindings that no later one
  overrides, each printed back as it was given (`b:b` for one without `:`).
-/
import Dfms.Docker
import Mathlib.Data.List.Basic

namespace Dfms.Docker

/-! ## 1. One binding: `binding.split(':')` -/

/-- Python's `s.split(sep)` for a one-character separator: the pieces between the separators,
empty ones included. -/
def strSplit (s : String) (sep : Char) : List String := (s.toList.splitOn sep).map String.mk

/-- A call on the Docker client, at the end of `initialize`, that can raise. -/
inductive ClientCall
  /-- `self._kwargs_from_env()`, which reads the user's Docker settings. -/
  | kwargsFromEnv
  /-- `AutoVersionClient(**extra_kwargs)`, which asks the daemon for its API version. -/
  | autoVersionClient
  /-- `c.images()`. -/
  | images
  /-- `c.pull(self._image)`. -/
  | pull
  deriving DecidableEq, Repr

/-- The exceptions `initialize` raises. -/
inductive InitError
  /-- `InvalidDropException(self, msg)`. -/
  | invalidDrop (msg : String)
  /-- `ValueError: too many values to unpack`, from `host_path, container_path =
  binding.split(':')` when the split has more than two pieces. -/
  | tooManyValuesToUnpack
  /-- An exception of the Docker client (`docker.errors`, `requests`), from the call named. -/
  | client (call : ClientCall)
  /-- `TypeError: argument of type 'NoneType' is not iterable`, from `self._image in
  b['RepoTags']` on an image the daemon lists with `RepoTags` `None`. -/
  | repoTagsNone
  deriving DecidableEq, Repr

/-- One binding as the loop of `initialize` reads it: `host_path = container_path = binding`
when `binding.find(':') == -1`, else `host_path, container_path = binding.split(':')`. -/
def parseBinding (binding : String) : Except InitError (String × String) :=
  if ':' ∉ binding.toList then .ok (binding, binding)
  else
    match strSplit binding ':' with
    | [hostPath, containerPath] => .ok (hostPath, containerPath)
    | _ => .error .tooManyValuesToUnpack

theorem splitOn_colon_of_not_mem {l : List Char} (h : ':' ∉ l) : l.splitOn ':' = [l] :=
  List.splitOnP_eq_single _ _ fun _ hx hc => h (beq_iff_eq.1 hc ▸ hx)

theorem splitOn_colon_append {t : List Char} (ht : ':' ∉ t) (r : List Char) :
    (t ++ ':' :: r).splitOn ':' = t :: r.splitOn ':' :=
  List.splitOnP_first (· == ':') t (fun _ hx hc => ht (beq_iff_eq.1 hc ▸ hx)) ':' (by simp) r

/-- A list holding `:` is split at its first one. -/
theorem exists_first_colon {l : List Char} (h : ':' ∈ l) :
    ∃ t r, l = t ++ ':' :: r ∧ ':' ∉ t := by
  induction l with
  | nil => cases h
  | cons x l ih =>
    by_cases hx : x = ':'
    · exact ⟨[], l, by rw [hx]; rfl, List.not_mem_nil _⟩
    · obtain ⟨t, r, rfl, ht⟩ := ih ((List.mem_cons.1 h).resolve_left (Ne.symm hx))
      exact ⟨x :: t, r, rfl, by simp [Ne.symm hx, ht]⟩

theorem parseBinding_append {hostPath containerPath : String} (hh : ':' ∉ hostPath.toList)
    (hc : ':' ∉ containerPath.toList) :
    parseBinding (hostPath ++ ":" ++ containerPath) = .ok (hostPath, containerPath) := by
  have hl : (hostPath ++ ":" ++ containerPath).toList = hostPath.toList ++ ':' :: containerPath.toList := by
    simp only [String.toList, String.data_append, List.append_assoc]
    rfl
  rw [parseBinding, if_neg (by simp [hl]), strSplit, hl, splitOn_colon_append hh,
    splitOn_colon_of_not_mem hc]
  rfl

theorem parseBinding_of_two_le {b : String} (h : 2 ≤ b.toList.count ':') :
    parseBinding b = .error .tooManyValuesToUnpack := by
  have hm : ':' ∈ b.toList := List.count_pos_iff.1 (by omega)
  obtain ⟨t, r, hb, ht⟩ := exists_first_colon hm
  have hr : ':' ∈ r := by
    rw [hb, List.count_append, List.count_cons_self, List.count_eq_zero_of_not_mem ht] at h
    exact List.count_pos_iff.1 (by omega)
  obtain ⟨t', r', rfl, ht'⟩ := exists_first_colon hr
  obtain ⟨x, xs, hx⟩ : ∃ x xs, r'.splitOn ':' = x :: xs :=
    List.exists_cons_of_ne_nil (List.splitOnP_ne_nil _ _)
  rw [parseBinding, if_neg (not_not.2 hm), strSplit, hb, splitOn_colon_append ht,
    splitOn_colon_append ht', hx]
  rfl

/-! ## 2. What a binding says -/

/-- The host side of a binding: its text before the first `:`, or all of it. -/
def hostPart (binding : String) : String := String.mk (binding.toList.takeWhile (· != ':'))

/-- The container side: its text after the first `:`, or all of it when it has none. -/
def containerPart (binding : String) : String :=
  if ':' ∈ binding.toList then String.mk (binding.toList.dropWhile (· != ':')).tail else binding

theorem hostPart_containerPart_of_first_colon {b : String} {t r : List Char}
    (hb : b.toList = t ++ ':' :: r) (ht : ':' ∉ t) :
    hostPart b = String.mk t ∧ containerPart b = String.mk r := by
  have hp : ∀ x ∈ t, (x != ':') = true := fun x hx => by
    simpa using fun h : x = ':' => ht (h ▸ hx)
  have hb' : b.data = t ++ ':' :: r := hb
  simp [hostPart, containerPart, hb', List.takeWhile_append_of_pos hp,
    List.dropWhile_append_of_pos hp]

theorem hostPart_of_not_mem {b : String} (h : ':' ∉ b.toList) : hostPart b = b :=
  congrArg String.mk (List.takeWhile_eq_self_iff.2 fun x hx => by
    simpa using fun hx' : x = ':' => h (hx' ▸ hx))

theorem parseBinding_of_count_le_one {b : String} (h : b.toList.count ':' ≤ 1) :
    parseBinding b = .ok (hostPart b, containerPart b) := by
  by_cases hm : ':' ∈ b.toList
  · obtain ⟨t, r, hb, ht⟩ := exists_first_colon hm
    have hr : ':' ∉ r := fun hr => by
      have := List.count_pos_iff.2 hr
      rw [hb, List.count_append, List.count_cons_self, List.count_eq_zero_of_not_mem ht] at h
      omega
    obtain ⟨hh, hc⟩ := hostPart_containerPart_of_first_colon hb ht
    rw [hh, hc, parseBinding, if_neg (not_not.2 hm), strSplit, hb, splitOn_colon_append ht,
      splitOn_colon_of_not_mem hr]
    rfl
  · rw [parseBinding, if_pos hm, hostPart_of_not_mem hm, containerPart, if_neg hm]

/-- A binding's two sides, printed as `run()` prints them. -/
theorem print_parts (b : String) :
    hostPart b ++ ":" ++ containerPart b = if ':' ∈ b.toList then b else b ++ ":" ++ b := by
  split_ifs with hm
  · obtain ⟨t, r, hb, ht⟩ := exists_first_colon hm
    obtain ⟨hh, hc⟩ := hostPart_containerPart_of_first_colon hb ht
    rw [hh, hc]
    exact String.ext (by simpa using hb.symm)
  · rw [hostPart_of_not_mem hm, containerPart, if_neg hm]

/-- **A binding string and its parts round-trip.**  `host:container` with no other `:` is
read back as its two sides; a string is accepted exactly when it holds at most one `:`; and
what is read from an accepted string prints back, as `run()` prints it, to the string itself
when it has a `:`, while a string without one is both sides at once. -/
theorem parseBinding_round_trip :
    (∀ hostPath containerPath : String, ':' ∉ hostPath.toList → ':' ∉ containerPath.toList →
      parseBinding (hostPath ++ ":" ++ containerPath) = .ok (hostPath, containerPath)) ∧
    ∀ binding : String,
      ((∃ p, parseBinding binding = .ok p) ↔ binding.toList.count ':' ≤ 1) ∧
      ∀ hostPath containerPath, parseBinding binding = .ok (hostPath, containerPath) →
        if ':' ∈ binding.toList then hostPath ++ ":" ++ containerPath = binding
        else hostPath = binding ∧ containerPath = binding := by
  refine ⟨fun _ _ => parseBinding_append, fun b => ?_⟩
  have hiff : (∃ p, parseBinding b = .ok p) ↔ b.toList.count ':' ≤ 1 := by
    refine ⟨fun ⟨p, hp⟩ => ?_, fun h => ⟨_, parseBinding_of_count_le_one h⟩⟩
    by_contra h
    rw [parseBinding_of_two_le (by omega)] at hp
    cases hp
  refine ⟨hiff, fun h c hp => ?_⟩
  rw [parseBinding_of_count_le_one (hiff.1 ⟨_, hp⟩)] at hp
  obtain ⟨rfl, rfl⟩ := Prod.mk.inj (Except.ok.inj hp)
  split_ifs with hm
  · exact (print_parts b).trans (if_pos hm)
  · exact ⟨hostPart_of_not_mem hm, if_neg hm⟩

/-! ## 3. The dict `_additionalBindings` -/

/-- A Python `dict` from strings to strings, by its items, with no key twice.  Python 2
iterates a `dict` in an order of its own; here the key assigned last comes first. -/
structure StrDict where
  items : List (String × String)
  keys_nodup : (items.map Prod.fst).Nodup

namespace StrDict

/-- `{}`. -/
def empty : StrDict := ⟨[], List.nodup_nil⟩

/-- `d[key] = value`. -/
def set (d : StrDict) (key value : String) : StrDict :=
  ⟨(key, value) :: d.items.filter (·.1 != key),
    List.nodup_cons.2 ⟨by simp, d.keys_nodup.sublist ((List.filter_sublist _).map _)⟩⟩

/-- `d.get(key)`. -/
def get? (d : StrDict) (key : String) : Option String := d.items.lookup key

theorem lookup_filter_of_ne {l : List (String × String)} {key k : String} (h : k ≠ key) :
    (l.filter (·.1 != key)).lookup k = l.lookup k := by
  induction l with
  | nil => rfl
  | cons p l ih =>
    obtain ⟨a, b⟩ := p
    by_cases ha : a = key
    · subst ha
      simp [List.filter_cons, ih, List.lookup_cons, beq_false_of_ne h]
    · cases hka : k == a <;> simp [List.filter_cons, ha, List.lookup_cons, hka, ih]

@[simp] theorem get?_empty (k : String) : empty.get? k = none := rfl

/-- `d[key] = value` changes what `key` maps to and nothing else. -/
theorem get?_set (d : StrDict) (key value k : String) :
    (d.set key value).get? k = if k = key then some value else d.get? k := by
  by_cases h : k = key
  · simp [get?, set, h]
  · simp [get?, set, h, List.lookup_cons, beq_false_of_ne h, lookup_filter_of_ne h]

end StrDict

/-! ## 4. `initialize` -/

/-- The keyword arguments `DockerApp.initialize` reads, `none` where one is not given. -/
structure DockerKwargs where
  image : Option String
  command : Option String
  user : Option String
  ensureUserAndSwitch : Option Bool
  removeContainer : Option Bool
  additionalBindings : Option (List String)
  deriving DecidableEq, Repr

/-- What `initialize` stores. -/
structure DockerConfig where
  image : String
  command : String
  user : Option String
  ensureUserAndSwitch : Bool
  removeContainer : Bool
  additionalBindings : StrDict

/-- One iteration of the loop over `additionalBindings`. -/
def addBinding (pathExists : String → Bool) (d : StrDict) (binding : String) :
    Except InitError StrDict := do
  let (hostPath, containerPath) ← parseBinding binding
  if !pathExists hostPath then
    throw (.invalidDrop
      ("'Path " ++ hostPath ++ " doesn't exist, cannot use as additional volume binding"))
  pure (d.set hostPath containerPath)

/-- What the Docker side answers at the end of `initialize`: whether `_kwargs_from_env()`
and `AutoVersionClient(...)` raise, what `c.images()` lists, each image by its `RepoTags`
(`none` for `None`), or `none` when the call raises, and the images `c.pull` fails on. -/
structure DockerEnv where
  kwargsFromEnvRaises : Bool
  clientRaises : Bool
  images : Option (List (Option (List String)))
  pullRaises : String → Bool

/-- One step of `functools.reduce(lambda a,b: a or self._image in b['RepoTags'], ...)`:
once an image has matched, `or` does not evaluate `in` again. -/
def repoTagsStep (image : String) (found : Bool) (repoTags : Option (List String)) :
    Except InitError Bool :=
  if found then pure true
  else
    match repoTags with
    | none => throw .repoTagsNone
    | some tags => pure (decide (image ∈ tags))

/-- `found = functools.reduce(..., c.images(), False)`. -/
def imageFound (image : String) (images : List (Option (List String))) : Except InitError Bool :=
  images.foldlM (repoTagsStep image) false

/-- The end of `initialize`: build the client, look the image up among those the daemon
has, and pull it when it is not there. -/
def ensureImage (env : DockerEnv) (image : String) : Except InitError Unit := do
  if env.kwargsFromEnvRaises then throw (.client .kwargsFromEnv)
  if env.clientRaises then throw (.client .autoVersionClient)
  let some images := env.images | throw (.client .images)
  let found ← imageFound image images
  if !found && env.pullRaises image then throw (.client .pull)

/-- `DockerApp.initialize`.  `pathExists` is `os.path.exists`. -/
def DockerApp.initialize (pathExists : String → Bool) (env : DockerEnv)
    (kwargs : DockerKwargs) : Except InitError DockerConfig := do
  let some image := kwargs.image.filter (!·.isEmpty)
    | throw (.invalidDrop "No docker image specified, cannot create DockerApp")
  let some command := kwargs.command.filter (!·.isEmpty)
    | throw (.invalidDrop "No command specified, cannot create DockerApp")
  let additionalBindings ←
    (kwargs.additionalBindings.getD []).foldlM (addBinding pathExists) StrDict.empty
  ensureImage env image
  pure { image, command, user := kwargs.user,
         ensureUserAndSwitch := kwargs.ensureUserAndSwitch.getD kwargs.user.isNone,
         removeContainer := kwargs.removeContainer.getD true, additionalBindings }

/-- The application `run()` sees: what `initialize` stored, and the inputs and outputs the
wiring gave it.  The dict's invariant is the field `DockerApp` asks for. -/
def DockerConfig.toApp (cfg : DockerConfig) (inputs outputs : List IODrop)
    (hi : (inputs.map IODrop.uid).Nodup) (ho : (outputs.map IODrop.uid).Nodup) : DockerApp :=
  ⟨inputs, outputs, cfg.additionalBindings.items, hi, ho, cfg.additionalBindings.keys_nodup⟩

/-! ## 5. The image lookup -/

/-- Whether an image ends the lookup: listed with `RepoTags` `None`, on which `in` raises,
or carrying the tag, after which `or` looks no further. -/
def endsLookup (image : String) (repoTags : Option (List String)) : Bool :=
  repoTags.all fun tags => decide (image ∈ tags)

@[simp] theorem endsLookup_eq_false {image : String} {repoTags : Option (List String)} :
    endsLookup image repoTags = false ↔ ∃ tags, repoTags = some tags ∧ image ∉ tags := by
  cases repoTags <;> simp [endsLookup]

theorem foldlM_repoTagsStep_true (image : String) :
    ∀ images : List (Option (List String)), images.foldlM (repoTagsStep image) true = .ok true
  | [] => rfl
  | _ :: images => by
    rw [List.foldlM_cons]
    exact foldlM_repoTagsStep_true image images

/-- The lookup stops at the first image that ends it: `TypeError` on one listed without
tags, found on one that carries the tag; with none, not found. -/
theorem imageFound_eq (image : String) (images : List (Option (List String))) :
    imageFound image images =
      match images.find? (endsLookup image) with
      | none => .ok false
      | some none => .error .repoTagsNone
      | some (some _) => .ok true := by
  induction images with
  | nil => rfl
  | cons t images ih =>
    rw [imageFound, List.foldlM_cons]
    rcases t with _ | tags
    · rfl
    · by_cases h : image ∈ tags <;>
        simp only [repoTagsStep, h, List.find?_cons, endsLookup, Option.all_some]
      exacts [foldlM_repoTagsStep_true image images, ih]

/-- An image that ends the lookup, with every image before it tagged without the image, is
where the lookup stops. -/
theorem find?_endsLookup {image : String} {images before after : List (Option (List String))}
    {x : Option (List String)} (h : images = before ++ x :: after) (hx : endsLookup image x)
    (hb : ∀ t ∈ before, ∃ ts, t = some ts ∧ image ∉ ts) :
    images.find? (endsLookup image) = some x :=
  List.find?_eq_some.2 ⟨hx, before, after, h, fun t ht => by simp [endsLookup_eq_false.2 (hb t ht)]⟩

/-- The client steps in one piece. -/
theorem ensureImage_eq (env : DockerEnv) (image : String) :
    ensureImage env image =
      if env.kwargsFromEnvRaises then .error (.client .kwargsFromEnv)
      else if env.clientRaises then .error (.client .autoVersionClient)
      else
        match env.images with
        | none => .error (.client .images)
        | some images =>
          match images.find? (endsLookup image) with
          | some none => .error .repoTagsNone
          | some (some _) => .ok ()
          | none => if env.pullRaises image then .error (.client .pull) else .ok () := by
  rcases env with ⟨_ | _, _ | _, _ | images, pullRaises⟩ <;> try rfl
  simp only [ensureImage, imageFound_eq]
  rcases images.find? (endsLookup image) with _ | _ | _ <;> rfl

/-- **What the client steps do.**  They return exactly when the client is built, the
daemon lists its images, and either some image carries the tag, every image listed before
it being tagged without it, or no image carries it, all being tagged, and the pull
succeeds.  They raise `TypeError` exactly when, the client built and the images listed, an
image with `RepoTags` `None` comes before any image carrying the tag: whether an untagged
image stops `initialize` depends on where the daemon lists it. -/
theorem ensureImage_ok_iff (env : DockerEnv) (image : String) :
    (ensureImage env image = .ok () ↔
      env.kwargsFromEnvRaises = false ∧ env.clientRaises = false ∧
        ∃ images, env.images = some images ∧
          ((∃ tags, image ∈ tags ∧ ∃ before after, images = before ++ some tags :: after ∧
              ∀ t ∈ before, ∃ ts, t = some ts ∧ image ∉ ts) ∨
            (∀ t ∈ images, ∃ ts, t = some ts ∧ image ∉ ts) ∧ env.pullRaises image = false)) ∧
    (ensureImage env image = .error .repoTagsNone ↔
      env.kwargsFromEnvRaises = false ∧ env.clientRaises = false ∧
        ∃ images, env.images = some images ∧ ∃ before after, images = before ++ none :: after ∧
          ∀ t ∈ before, ∃ ts, t = some ts ∧ image ∉ ts) := by
  rw [ensureImage_eq]
  cases hk : env.kwargsFromEnvRaises
  swap
  · exact ⟨iff_of_false (by simp) (fun h => nomatch h.1),
      iff_of_false (by simp) (fun h => nomatch h.1)⟩
  cases hc : env.clientRaises
  swap
  · exact ⟨iff_of_false (by simp) (fun h => nomatch h.2.1),
      iff_of_false (by simp) (fun h => nomatch h.2.1)⟩
  cases hi : env.images with
  | none =>
    exact ⟨iff_of_false (by simp) (fun ⟨_, _, _, h, _⟩ => nomatch h),
      iff_of_false (by simp) (fun ⟨_, _, _, h, _⟩ => nomatch h)⟩
  | some images =>
    simp only [Bool.false_eq_true, if_false, Option.some.injEq, exists_eq_left', true_and]
    rcases hf : images.find? (endsLookup image) with _ | _ | tags <;> simp only [hf]
    · have hall : ∀ t ∈ images, ∃ ts, t = some ts ∧ image ∉ ts := fun t ht =>
        endsLookup_eq_false.1 (by simpa using List.find?_eq_none.1 hf t ht)
      refine ⟨?_, iff_of_false (by cases env.pullRaises image <;> simp) fun ⟨_, _, h, hb⟩ =>
        nomatch (find?_endsLookup h rfl hb).symm.trans hf⟩
      rw [or_iff_right (fun ⟨_, hin, _, _, h, hb⟩ =>
        nomatch (find?_endsLookup h (decide_eq_true hin) hb).symm.trans hf), and_iff_right hall]
      cases env.pullRaises image <;> simp
    · obtain ⟨-, before, after, h, hb⟩ := List.find?_eq_some.1 hf
      refine ⟨iff_of_false (by simp) ?_, iff_of_true trivial ⟨before, after, h,
        fun t ht => endsLookup_eq_false.1 (by simpa using hb t ht)⟩⟩
      rintro (⟨_, hin, _, _, h', hb'⟩ | ⟨hall, -⟩)
      · exact nomatch (find?_endsLookup h' (decide_eq_true hin) hb').symm.trans hf
      · obtain ⟨_, hts, -⟩ := hall none (h ▸ List.mem_append_right _ (List.mem_cons_self _ _))
        cases hts
    · obtain ⟨hin, before, after, h, hb⟩ := List.find?_eq_some.1 hf
      refine ⟨iff_of_true trivial (.inl ⟨tags, by simpa [endsLookup] using hin, before, after, h,
        fun t ht => endsLookup_eq_false.1 (by simpa using hb t ht)⟩), iff_of_false (by simp)
        fun ⟨_, _, h', hb'⟩ => nomatch (find?_endsLookup h' rfl hb').symm.trans hf⟩

/-! ## 6. What `initialize` accepts, stores and raises -/

/-- Whether the loop accepts a binding: at most one `:`, and an existing host path. -/
def Accepted (pathExists : String → Bool) (binding : String) : Bool :=
  decide (binding.toList.count ':' ≤ 1) && pathExists (hostPart binding)

/-- The exception the loop raises for a binding it does not accept. -/
def bindingError (binding : String) : InitError :=
  if 2 ≤ binding.toList.count ':' then .tooManyValuesToUnpack
  else .invalidDrop
    ("'Path " ++ hostPart binding ++ " doesn't exist, cannot use as additional volume binding")

/-- One iteration stores an accepted binding under its host side and raises for any other. -/
theorem addBinding_eq (pathExists : String → Bool) (d : StrDict) (b : String) :
    addBinding pathExists d b =
      if Accepted pathExists b then .ok (d.set (hostPart b) (containerPart b))
      else .error (bindingError b) := by
  by_cases h2 : 2 ≤ b.toList.count ':'
  · have hacc : Accepted pathExists b = false := by
      simp only [Accepted, Bool.and_eq_false_iff, decide_eq_false_iff_not]
      exact .inl (by omega)
    rw [addBinding, parseBinding_of_two_le h2, hacc, bindingError, if_pos h2]
    rfl
  · have h1 : b.toList.count ':' ≤ 1 := by omega
    rw [addBinding, parseBinding_of_count_le_one h1, bindingError, if_neg h2]
    have h1' : b.data.count ':' ≤ 1 := h1
    cases he : pathExists (hostPart b) <;>
      simp [Accepted, h1', he, bind, Except.bind, throw, throwThe, MonadExceptOf.throw, pure,
        Except.pure]

/-- The loop: the first binding it does not accept raises; with none, the dict holds every
binding, a later one overriding an earlier one with the same host side. -/
theorem foldlM_addBinding (pathExists : String → Bool) : ∀ (l : List String) (d : StrDict),
    l.foldlM (addBinding pathExists) d =
      match l.find? (fun b => !Accepted pathExists b) with
      | none => .ok (l.foldl (fun d b => d.set (hostPart b) (containerPart b)) d)
      | some b => .error (bindingError b)
  | [], _ => rfl
  | b :: l, d => by
    rw [List.foldlM_cons, addBinding_eq, List.find?_cons]
    cases h : Accepted pathExists b
    · rfl
    · exact foldlM_addBinding pathExists l _

theorem get?_foldl_set (l : List String) (d : StrDict) (k : String) :
    (l.foldl (fun d b => d.set (hostPart b) (containerPart b)) d).get? k =
      ((l.map fun b => (hostPart b, containerPart b)).reverse.lookup k).or (d.get? k) := by
  induction l generalizing d with
  | nil => rfl
  | cons b l ih =>
    rw [List.foldl_cons, ih, StrDict.get?_set, List.map_cons, List.reverse_cons, List.lookup_append]
    by_cases hk : k = hostPart b <;> simp [hk, List.lookup_cons, beq_false_of_ne, Option.or_assoc]

/-- `initialize` in one piece: the image check, the command check, the loop, then the
client steps. -/
theorem initialize_eq (pathExists : String → Bool) (env : DockerEnv) (kwargs : DockerKwargs) :
    DockerApp.initialize pathExists env kwargs =
      if !kwargs.image.any (!·.isEmpty) then
        .error (.invalidDrop "No docker image specified, cannot create DockerApp")
      else if !kwargs.command.any (!·.isEmpty) then
        .error (.invalidDrop "No command specified, cannot create DockerApp")
      else
        match (kwargs.additionalBindings.getD []).find? (fun b => !Accepted pathExists b) with
        | some b => .error (bindingError b)
        | none =>
          match ensureImage env (kwargs.image.getD "") with
          | .error e => .error e
          | .ok _ => .ok ⟨kwargs.image.getD "", kwargs.command.getD "", kwargs.user,
              kwargs.ensureUserAndSwitch.getD kwargs.user.isNone, kwargs.removeContainer.getD true,
              (kwargs.additionalBindings.getD []).foldl
                (fun d b => d.set (hostPart b) (containerPart b)) StrDict.empty⟩ := by
  rcases kwargs with ⟨_ | image, _ | command, user, eus, rc, bindings⟩
  · rfl
  · rfl
  · cases hi : image.isEmpty <;> simp [ DockerApp.initialize, Option.filter, hi] <;> rfl
  · cases hi : image.isEmpty <;> cases hc : command.isEmpty <;>
      simp [ DockerApp.initialize, Option.filter, hi, hc] <;> try rfl
    cases h : (bindings.getD []).find? (fun b => !Accepted pathExists b) <;>
      simp [foldlM_addBinding, h, bind, Except.bind, pure, Except.pure]
    cases ensureImage env image <;> rfl

theorem eq_some_getD_of_any {o : Option String} {p : String → Bool} (h : o.any p) :
    o = some (o.getD "") := by
  cases o <;> simp_all

/-- **What `initialize` accepts.**  It returns exactly when `image` and `command` are given
and non-empty, every additional binding holds at most one `:` and names an existing host
path, and the client steps return for the image. -/
theorem initialize_ok_iff (pathExists : String → Bool) (env : DockerEnv) (kwargs : DockerKwargs) :
    (∃ cfg, DockerApp.initialize pathExists env kwargs = .ok cfg) ↔
      kwargs.image.any (!·.isEmpty) ∧ kwargs.command.any (!·.isEmpty) ∧
        (∀ b ∈ kwargs.additionalBindings.getD [],
          b.toList.count ':' ≤ 1 ∧ pathExists (hostPart b)) ∧
        ensureImage env (kwargs.image.getD "") = .ok () := by
  rw [initialize_eq]
  cases kwargs.image.any (!·.isEmpty) <;> cases kwargs.command.any (!·.isEmpty) <;> simp
  cases h : (kwargs.additionalBindings.getD []).find? (fun b => !Accepted pathExists b) with
  | none =>
    have hall : ∀ b ∈ kwargs.additionalBindings.getD [],
        b.data.count ':' ≤ 1 ∧ pathExists (hostPart b) := by simpa [Accepted] using h
    cases ensureImage env (kwargs.image.getD "") with
    | error e => simp
    | ok u => simpa using hall
  | some b =>
    refine iff_of_false (fun ⟨_, hcfg⟩ => by cases hcfg) fun ⟨hall, _⟩ => ?_
    have hb := List.find?_some h
    have ⟨h1, he⟩ := hall b (List.mem_of_find?_eq_some h)
    simp [Accepted, h1, he] at hb

/-- What a returning `initialize` stored: the arguments given, the defaults, and the dict
the bindings loop built. -/
theorem initialize_config {pathExists : String → Bool} {env : DockerEnv} {kwargs : DockerKwargs}
    {cfg : DockerConfig} (h : DockerApp.initialize pathExists env kwargs = .ok cfg) :
    kwargs.image = some cfg.image ∧ kwargs.command = some cfg.command ∧
      cfg.user = kwargs.user ∧
      cfg.ensureUserAndSwitch = kwargs.ensureUserAndSwitch.getD kwargs.user.isNone ∧
      cfg.removeContainer = kwargs.removeContainer.getD true ∧
      ∀ hostPath, cfg.additionalBindings.get? hostPath =
        ((kwargs.additionalBindings.getD []).map fun b => (hostPart b, containerPart b)).reverse.lookup
          hostPath := by
  rw [initialize_eq] at h
  split_ifs at h with hi hc
  split at h
  · cases h
  · split at h
    · cases h
    · cases h
      exact ⟨eq_some_getD_of_any (by simpa using hi), eq_some_getD_of_any (by simpa using hc),
        rfl, rfl, rfl, fun k => by simp [get?_foldl_set]⟩

/-- The last entry for a key, read through the reversed list. -/
theorem lookup_reverse_map_eq_some {f : String → String × String} {l : List String}
    {k v : String} :
    (l.map f).reverse.lookup k = some v ↔
      ∃ before b after, l = before ++ b :: after ∧ f b = (k, v) ∧ ∀ b' ∈ after, (f b').1 ≠ k := by
  rw [List.lookup_eq_some_iff]
  constructor
  · rintro ⟨l₁, l₂, h, hl₁⟩
    rw [List.reverse_eq_append_iff, List.reverse_cons, List.append_assoc, List.singleton_append,
      List.map_eq_append_iff] at h
    obtain ⟨before, rest, rfl, -, hrest⟩ := h
    obtain ⟨b, after, rfl, hb, hafter⟩ := List.map_eq_cons_iff.1 hrest
    refine ⟨before, b, after, rfl, hb, fun b' hb' hk => ?_⟩
    have hmem : f b' ∈ l₁ := List.mem_reverse.1 (hafter ▸ List.mem_map_of_mem f hb')
    simpa [hk] using hl₁ _ hmem
  · rintro ⟨before, b, after, rfl, hb, hafter⟩
    refine ⟨(after.map f).reverse, (before.map f).reverse, by simp [hb], fun p hp => ?_⟩
    obtain ⟨b', hb', rfl⟩ := List.mem_map.1 (List.mem_reverse.1 hp)
    simpa using Ne.symm (hafter b' hb')

/-- **The last binding wins.**  Whenever `initialize` returns, its dict maps a host path to
a container path exactly when the last of the given bindings naming that host path has that
container side: an earlier binding of the same host path is overridden, and a path no
binding names maps to nothing. -/
theorem initialize_stored {pathExists : String → Bool} {env : DockerEnv} {kwargs : DockerKwargs}
    {cfg : DockerConfig} (h : DockerApp.initialize pathExists env kwargs = .ok cfg)
    (hostPath containerPath : String) :
    cfg.additionalBindings.get? hostPath = some containerPath ↔
      ∃ before b after, kwargs.additionalBindings.getD [] = before ++ b :: after ∧
        hostPart b = hostPath ∧ containerPart b = containerPath ∧
        ∀ b' ∈ after, hostPart b' ≠ hostPath := by
  rw [(initialize_config h).2.2.2.2.2, lookup_reverse_map_eq_some]
  simp only [Prod.mk.injEq, and_assoc]

/-- Three bindings, two naming `/a`, with the image on the daemon: the last is stored. -/
theorem initialize_stored_last_binding :
    ∃ cfg, DockerApp.initialize (fun _ => true)
        ⟨false, false, some [some ["ubuntu:14.04"]], fun _ => false⟩
        ⟨some "ubuntu:14.04", some "ls", none, none, none, some ["/a:/b", "/c", "/a:/d"]⟩ =
          .ok cfg ∧
      cfg.additionalBindings.get? "/a" = some "/d" ∧
      cfg.additionalBindings.get? "/c" = some "/c" := by
  obtain ⟨cfg, hcfg⟩ : ∃ cfg, DockerApp.initialize (fun _ => true)
      ⟨false, false, some [some ["ubuntu:14.04"]], fun _ => false⟩
      ⟨some "ubuntu:14.04", some "ls", none, none, none, some ["/a:/b", "/c", "/a:/d"]⟩ =
        .ok cfg := ⟨_, rfl⟩
  exact ⟨cfg, hcfg,
    (initialize_stored hcfg "/a" "/d").2 ⟨["/a:/b", "/c"], "/a:/d", [], rfl, by decide, by decide,
      by simp⟩,
    (initialize_stored hcfg "/c" "/c").2 ⟨["/a:/b"], "/c", ["/a:/d"], rfl, by decide, by decide,
      by decide⟩⟩

/-- **What `initialize` raises.**  The first check that fails, in the source's order: no
image, no command, or the first binding not accepted, which raises `ValueError` if it holds
two `:` or more and otherwise names its host path as missing; with every argument accepted,
a client step raised (`ensureImage_ok_iff`). -/
theorem initialize_error {pathExists : String → Bool} {env : DockerEnv} {kwargs : DockerKwargs}
    {e : InitError} (h : DockerApp.initialize pathExists env kwargs = .error e) :
    (kwargs.image.any (!·.isEmpty) = false ∧
        e = .invalidDrop "No docker image specified, cannot create DockerApp") ∨
      (kwargs.image.any (!·.isEmpty) ∧ kwargs.command.any (!·.isEmpty) = false ∧
        e = .invalidDrop "No command specified, cannot create DockerApp") ∨
      (kwargs.image.any (!·.isEmpty) ∧ kwargs.command.any (!·.isEmpty) ∧
        ∃ before b after, kwargs.additionalBindings.getD [] = before ++ b :: after ∧
          (∀ b' ∈ before, b'.toList.count ':' ≤ 1 ∧ pathExists (hostPart b')) ∧
          (2 ≤ b.toList.count ':' ∧ e = .tooManyValuesToUnpack ∨
            b.toList.count ':' ≤ 1 ∧ pathExists (hostPart b) = false ∧
              e = .invalidDrop ("'Path " ++ hostPart b ++
                " doesn't exist, cannot use as additional volume binding"))) ∨
      (kwargs.image.any (!·.isEmpty) ∧ kwargs.command.any (!·.isEmpty) ∧
        (∀ b ∈ kwargs.additionalBindings.getD [],
          b.toList.count ':' ≤ 1 ∧ pathExists (hostPart b)) ∧
        ensureImage env (kwargs.image.getD "") = .error e) := by
  rw [initialize_eq] at h
  split_ifs at h with hi hc
  · exact .inl ⟨by simpa using hi, (Except.error.inj h).symm⟩
  · exact .inr (.inl ⟨by simpa using hi, by simpa using hc, (Except.error.inj h).symm⟩)
  have hi' : kwargs.image.any (!·.isEmpty) := by simpa using hi
  have hc' : kwargs.command.any (!·.isEmpty) := by simpa using hc
  cases hf : (kwargs.additionalBindings.getD []).find? (fun b => !Accepted pathExists b) with
  | none =>
    simp only [hf] at h
    have hall : ∀ b ∈ kwargs.additionalBindings.getD [],
        b.toList.count ':' ≤ 1 ∧ pathExists (hostPart b) := by simpa [Accepted] using hf
    split at h
    · cases h
      exact .inr (.inr (.inr ⟨hi', hc', hall, ‹_›⟩))
    · cases h
  | some b =>
    simp only [hf, Except.error.injEq] at h
    subst h
    obtain ⟨hb, before, after, hl, hbefore⟩ := List.find?_eq_some.1 hf
    refine .inr (.inr (.inl ⟨hi', hc', before, b, after, hl,
      fun b' hb' => by simpa [Accepted] using hbefore b' hb', ?_⟩))
    simp only [Accepted, Bool.not_and, Bool.or_eq_true, Bool.not_eq_true',
      decide_eq_false_iff_not] at hb
    by_cases h2 : 2 ≤ b.toList.count ':'
    · exact .inl ⟨h2, if_pos h2⟩
    · exact .inr ⟨by omega, by rcases hb with hb | hb <;> [omega; exact hb], if_neg h2⟩

/-- A binding with a Docker mode suffix after an accepted one: `ValueError`, for it, before
the client is built. -/
theorem initialize_error_mode_suffix :
    DockerApp.initialize (fun _ => true) ⟨true, true, none, fun _ => true⟩
        ⟨some "ubuntu:14.04", some "ls", none, none, none, some ["/a:/b", "/a:/b:ro"]⟩ =
          .error .tooManyValuesToUnpack ∧
      ∃ before b after, ["/a:/b", "/a:/b:ro"] = before ++ b :: after ∧
        2 ≤ b.toList.count ':' := by
  have h : DockerApp.initialize (fun _ => true) ⟨true, true, none, fun _ => true⟩
      ⟨some "ubuntu:14.04", some "ls", none, none, none, some ["/a:/b", "/a:/b:ro"]⟩ =
        .error .tooManyValuesToUnpack := rfl
  refine ⟨h, ?_⟩
  rcases initialize_error h with ⟨hi, -⟩ | ⟨-, hc, -⟩ |
      ⟨-, -, before, b, after, hl, -, ⟨h2, -⟩ | ⟨-, -, he⟩⟩ | ⟨-, -, hall, -⟩
  · exact absurd hi (by decide)
  · exact absurd hc (by decide)
  · exact ⟨before, b, after, hl, h2⟩
  · cases he
  · exact absurd (hall "/a:/b:ro" (by simp)).1 (by decide)

/-! ## 7. Back to `run()`: the bindings it passes -/

/-- With no key twice, an item is in the dict exactly when its key maps to its value. -/
theorem StrDict.mem_items_iff (d : StrDict) (k v : String) :
    (k, v) ∈ d.items ↔ d.get? k = some v := by
  rw [StrDict.get?, List.lookup_eq_some_iff]
  refine ⟨fun h => ?_, fun ⟨l₁, l₂, hl, _⟩ => hl ▸ List.mem_append_right _ (List.mem_cons_self _ _)⟩
  obtain ⟨l₁, l₂, hl⟩ := List.append_of_mem h
  have hnd := d.keys_nodup
  rw [hl, List.map_append, List.map_cons] at hnd
  refine ⟨l₁, l₂, hl, fun p hp => ?_⟩
  have hk : p.1 ≠ k := fun hpk =>
    List.disjoint_of_nodup_append hnd (List.mem_map_of_mem _ hp) (hpk ▸ List.mem_cons_self _ _)
  simpa using Ne.symm hk

/-- **The bindings `run()` passes.**  For an application whose arguments `initialize`
accepted, whatever its inputs and outputs, a string is in `binds` exactly when it is an
input's or an output's binding, or a given additional binding that no later one overrides,
printed back verbatim when it holds a `:` and as `b:b` when it does not. -/
theorem initialized_binds {pathExists : String → Bool} {env : DockerEnv} {kwargs : DockerKwargs}
    {cfg : DockerConfig} (h : DockerApp.initialize pathExists env kwargs = .ok cfg)
    (inputs outputs : List IODrop) (hi : (inputs.map IODrop.uid).Nodup)
    (ho : (outputs.map IODrop.uid).Nodup) (s : String) :
    s ∈ (cfg.toApp inputs outputs hi ho).binds ↔
      s ∈ (inputs.filterMap IODrop.fsPath).map inputBinding ∨
      s ∈ (outputs.filterMap IODrop.fsPath).map outputBinding ∨
      ∃ before b after, kwargs.additionalBindings.getD [] = before ++ b :: after ∧
        (∀ b' ∈ after, hostPart b' ≠ hostPart b) ∧
        s = if ':' ∈ b.toList then b else b ++ ":" ++ b := by
  have hget := (initialize_config h).2.2.2.2.2
  simp only [DockerApp.binds, DockerConfig.toApp, List.mem_append, or_assoc]
  refine or_congr_right (or_congr_right ⟨?_, ?_⟩)
  · simp only [List.mem_map, Prod.exists]
    rintro ⟨k, v, hkv, rfl⟩
    rw [StrDict.mem_items_iff, hget, lookup_reverse_map_eq_some] at hkv
    obtain ⟨before, b, after, hl, hb, hafter⟩ := hkv
    obtain ⟨rfl, rfl⟩ := Prod.mk.inj hb
    exact ⟨before, b, after, hl, hafter, print_parts b⟩
  · rintro ⟨before, b, after, hl, hafter, rfl⟩
    refine List.mem_map.2 ⟨(hostPart b, containerPart b), ?_, print_parts b⟩
    rw [StrDict.mem_items_iff, hget, lookup_reverse_map_eq_some]
    exact ⟨before, b, after, hl, rfl, hafter⟩

/-- The bindings of `initialize_stored_last_binding`, with no inputs and no outputs: `/a:/d`
and `/c:/c` are passed. -/
theorem initialized_binds_last_binding :
    ∃ cfg, DockerApp.initialize (fun _ => true)
        ⟨false, false, some [some ["ubuntu:14.04"]], fun _ => false⟩
        ⟨some "ubuntu:14.04", some "ls", none, none, none, some ["/a:/b", "/c", "/a:/d"]⟩ =
          .ok cfg ∧
      "/a:/d" ∈ (cfg.toApp [] [] List.nodup_nil List.nodup_nil).binds ∧
      "/c:/c" ∈ (cfg.toApp [] [] List.nodup_nil List.nodup_nil).binds := by
  obtain ⟨cfg, hcfg⟩ : ∃ cfg, DockerApp.initialize (fun _ => true)
      ⟨false, false, some [some ["ubuntu:14.04"]], fun _ => false⟩
      ⟨some "ubuntu:14.04", some "ls", none, none, none, some ["/a:/b", "/c", "/a:/d"]⟩ =
        .ok cfg := ⟨_, rfl⟩
  refine ⟨cfg, hcfg, (initialized_binds hcfg [] [] List.nodup_nil List.nodup_nil _).2
    (.inr (.inr ⟨["/a:/b", "/c"], "/a:/d", [], rfl, by simp, by decide⟩)),
    (initialized_binds hcfg [] [] List.nodup_nil List.nodup_nil _).2
    (.inr (.inr ⟨["/a:/b"], "/c", ["/a:/d"], rfl, by decide, by decide⟩))⟩

end Dfms.Docker
