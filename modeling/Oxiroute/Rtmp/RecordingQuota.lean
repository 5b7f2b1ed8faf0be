import Oxiroute.Rtmp.RecordingStore

/-!
# The quotas of a recording store are exact

`Accounted` is what every operation keeps: the two counters are the files and bytes of the root,
plus what creations and writes that are running have reserved, and they keep to the limits. It needs
that every open recording knows the size of its file (`Attached`) and is the only one of that file.

`step_accounted` is one operation and `run_root_accounted` the whole run, as long as no recording is
resumed that is still open, no write of nothing follows a seek past the end, and an entry can be
looked up (`Orderly`). `run_miscounts` are runs in which the counters go wrong.
-/

namespace Oxiroute.Rtmp

open Lib Table List RecordingStore Function Nat AList

namespace RecordingStore

variable {Name : Type} {limits : RecordingStoreLimits} {s s' : RecordingStore Name}
  {file file' : RecordingFile Name} {handle : ℕ}

/-- What a write that is running has reserved. -/
def reservedOf (file : RecordingFile Name) : ℕ := (file.writing.map PendingWrite.reserved).getD 0

/-- What the writes that are running have reserved. -/
def reserved (s : RecordingStore Name) : ℕ := total reservedOf s.handles

/-- What a recording knows after so many bytes have been written. -/
def wrote (file : RecordingFile Name) (written : ℕ) : RecordingFile Name :=
  { file with
    position := file.position + written
    length := max file.length (file.position + written)
    writing := none }

theorem idle_eq_some (h : s.idle handle = some file) :
    s.handles.lookup handle = some file ∧ file.writing = none := by
  obtain ⟨hlookup, hidle⟩ := Option.filter_eq_some_iff.mp h
  exact ⟨hlookup, Option.isNone_iff_eq_none.mp hidle⟩

theorem reservedOf_idle (h : file.writing = none) : reservedOf file = 0 := by
  rw [reservedOf, h]
  rfl

variable {pending : PendingWrite} {size : ℕ → ℕ} {claimed lock : Bool}
  {collision : Name → ℕ → Option Name} {maxBytes : Option ℕ}

theorem reservedOf_writing (h : file.writing = some pending) :
    reservedOf file = pending.reserved := by
  rw [reservedOf, h]
  rfl

theorem reserved_setFile (hfile : s.handles.lookup handle = some file)
    (file' : RecordingFile Name) :
    (s.setFile handle file').reserved + reservedOf file = s.reserved + reservedOf file' := by
  have h := total_insert_add reservedOf s.handles handle file'
  rw [hfile] at h
  exact h

theorem reserved_of_idle (h : ∀ handle file, s.handles.lookup handle = some file →
    file.writing = none) :
    s.reserved = 0 := by
  have hzero : s.reserved = total (fun _ => 0) s.handles := by
    exact total_congr fun handle file hfile => reservedOf_idle (h handle file hfile)
  rw [hzero, total, sum_eq_zero]
  intro n hn
  obtain ⟨e, -, rfl⟩ := mem_map.mp hn
  rfl

/-- The bytes that `scan_root` counts, when they fit the counter. -/
theorem scan_bytes {l : List (Sigma fun _ : Name => ℕ)} :
    ∀ bytes, bytes + (l.map fun e => size e.2).sum < 2 ^ 64 →
      l.foldl (fun bytes e => min (bytes + size e.2) (2 ^ 64 - 1)) bytes =
        bytes + (l.map fun e => size e.2).sum := by
  induction l with
  | nil =>
    intro bytes _
    rfl
  | cons e l ih =>
    intro bytes hlt
    rw [map_cons, sum_cons] at hlt
    have hmin : min (bytes + size e.2) (2 ^ 64 - 1) = bytes + size e.2 := by omega
    rw [foldl_cons, hmin, ih _ (by omega), map_cons, sum_cons]
    omega

variable [DecidableEq Name]

/-- What an open recording knows of its file. -/
structure Attached (s : RecordingStore Name) (file : RecordingFile Name) : Prop where
  entry : s.root.lookup file.partialName = some file.inode
  only : ∀ name, s.root.lookup name = some file.inode → name = file.partialName
  length : file.length = s.size file.inode
  accounted : file.fileAccounted = true
  created : file.partialExists = !file.resumed
  limit : ∀ maximum, file.maxBytes = some maximum → file.length ≤ maximum
  pending : ∀ write, file.writing = some write →
    write.reserved = file.position + write.requested - file.length ∧
      ∀ maximum, file.maxBytes = some maximum → file.position + write.requested ≤ maximum

/-- What holds of a store between two operations. -/
structure Accounted (limits : RecordingStoreLimits) (s : RecordingStore Name) : Prop where
  files : s.files = Table.size s.root + s.creating
  bytes : s.bytesUsed = s.bytesInRoot + s.reserved
  maxFiles : ∀ maximum, limits.maxFiles = some maximum → s.files ≤ maximum
  maxBytes : ∀ maximum, limits.maxBytes = some maximum → s.bytesUsed ≤ maximum
  attached : ∀ handle file, s.handles.lookup handle = some file → s.Attached file
  alone : ∀ handle handle' file file', s.handles.lookup handle = some file →
    s.handles.lookup handle' = some file' → file.inode = file'.inode → handle = handle'
  freshInode : ∀ name inode, s.root.lookup name = some inode → inode < s.nextInode
  freshHandle : ∀ handle file, s.handles.lookup handle = some file → handle < s.nextHandle
  leases : s.activeRecorders = s.leases
  limits : s.limits = limits

/-- A condition on an operation and the store before it: a file that is resumed is not open, the
system writes something when the position is past the end, and an entry can be looked up. -/
def Orderly (s : RecordingStore Name) : Op Name → Prop
  | .resume name _ _ _ _ _ => ∀ handle file, s.handles.lookup handle = some file →
      s.root.lookup name ≠ some file.inode
  | .writeEnd handle (some written) => ∀ file pending, s.handles.lookup handle = some file →
      file.writing = some pending → file.length < file.position → 0 < min written pending.requested
  | .commit _ answers dropAnswers =>
    answers.statted = true ∧ answers.restatted = true ∧ dropAnswers.statted = true
  | .drop _ answers => answers.statted = true
  | _ => True

theorem le_of_not_any {limit : Option ℕ} {n maximum : ℕ}
    (h : ¬limit.any (fun maximum => decide (maximum < n)) = true) (hlimit : limit = some maximum) :
    n ≤ maximum := by
  simpa [hlimit] using h

theorem Attached.of_root (h : s.Attached file)
    (hentry : s'.root.lookup file.partialName = s.root.lookup file.partialName)
    (honly : ∀ name, s'.root.lookup name = some file.inode → s.root.lookup name = some file.inode)
    (hsize : s'.size file.inode = s.size file.inode) : s'.Attached file :=
  ⟨hentry.trans h.entry, fun name hname =>
    h.only name (honly name hname), h.length.trans hsize.symm,
    h.accounted, h.created, h.limit, h.pending⟩

theorem Attached.of_same (h : s.Attached file) (hroot : s'.root = s.root)
    (hsize : s'.size file.inode = s.size file.inode) : s'.Attached file :=
  h.of_root (by rw [hroot]) (fun name hname => by rwa [hroot] at hname) hsize

/-! ## Recordings that change -/

variable (h : s.Accounted limits)
include h

/-- The store is as it was, but for an open recording that stays attached and for its reservation.
-/
theorem Accounted.setFile (hfile : s.handles.lookup handle = some file)
    (hinode : file'.inode = file.inode) (bytesUsed : ℕ) (size : ℕ → ℕ)
    (hbytes : bytesUsed = total size s.root + (s.setFile handle file').reserved)
    (hlimit : ∀ maximum, limits.maxBytes = some maximum → bytesUsed ≤ maximum)
    (hattached : Attached { s with size := size } file')
    (hsize : ∀ inode, inode ≠ file.inode → size inode = s.size inode) :
    Accounted limits { s.setFile handle file' with bytesUsed := bytesUsed, size := size } := by
  refine ⟨h.files, hbytes, h.maxFiles, hlimit, ?_, ?_, h.freshInode, ?_, h.leases, h.limits⟩
  · intro handle' g hg
    obtain ⟨-, rfl⟩ | ⟨heq, hg⟩ := of_lookup_insert hg
    · exact hattached.of_same rfl rfl
    · have hne : g.inode ≠ file.inode := fun hsame =>
        heq (h.alone handle' handle g file hg hfile hsame)
      exact (h.attached handle' g hg).of_same rfl (hsize g.inode hne)
  · intro h₁ h₂ g₁ g₂ hg₁ hg₂ hsame
    obtain ⟨heq₁, rfl⟩ | ⟨-, hg₁⟩ := of_lookup_insert hg₁ <;>
      obtain ⟨heq₂, rfl⟩ | ⟨-, hg₂⟩ := of_lookup_insert hg₂
    · rw [heq₁, heq₂]
    · exact heq₁ ▸ h.alone handle h₂ file g₂ hfile hg₂ (hinode ▸ hsame)
    · exact heq₂ ▸ h.alone h₁ handle g₁ file hg₁ hfile (hsame.trans hinode)
    · exact h.alone h₁ h₂ g₁ g₂ hg₁ hg₂ hsame
  · intro handle' g hg
    obtain ⟨rfl, -⟩ | ⟨-, hg⟩ := of_lookup_insert hg
    · exact h.freshHandle _ file hfile
    · exact h.freshHandle handle' g hg

theorem Accounted.setFile_same (hfile : s.handles.lookup handle = some file)
    (hinode : file'.inode = file.inode) (hreserved : reservedOf file' = reservedOf file)
    (hattached : s.Attached file') : (s.setFile handle file').Accounted limits := by
  have hsame := reserved_setFile hfile file'
  refine h.setFile hfile hinode _ s.size ?_ h.maxBytes hattached fun _ _ => rfl
  rw [h.bytes, bytesInRoot]
  omega

theorem Accounted.seek {position : ℕ} : (s.seek handle position claimed).Accounted limits := by
  unfold RecordingStore.seek
  split
  · exact h
  · rename_i file hidle
    obtain ⟨hfile, hwriting⟩ := idle_eq_some hidle
    have ha := h.attached handle file hfile
    split_ifs
    · exact h.setFile_same hfile rfl rfl { ha with
        pending := fun _ hpending => absurd (hwriting.symm.trans hpending) (by simp) }
    · exact h

theorem Accounted.writeBegin {requested : ℕ} :
    (s.writeBegin handle requested claimed).Accounted limits := by
  unfold RecordingStore.writeBegin
  split
  · exact h
  · rename_i file hidle
    obtain ⟨hfile, hwriting⟩ := idle_eq_some hidle
    have ha := h.attached handle file hfile
    dsimp only
    split_ifs with hclaimed hend hmaximum htotal hlimit
    · exact h
    · exact h
    · exact h
    · exact h
    · exact h
    · have hsame := reserved_setFile hfile
        { file with writing := some ⟨requested, file.position + requested - file.length⟩ }
      have hnone := reservedOf_idle hwriting
      refine h.setFile hfile (by rfl) _ s.size ?_ ?_ ?_ fun _ _ => rfl
      · have hbytes := h.bytes
        rw [bytesInRoot] at hbytes
        simp only [reservedOf, Option.map_some, Option.getD_some] at hsame hnone
        omega
      · exact fun maximum hmax => le_of_not_any hlimit (h.limits ▸ hmax)
      · refine { ha with pending := fun pending hpending => ?_ }
        cases hpending
        exact ⟨rfl, fun maximum hmax => le_of_not_any hmaximum hmax⟩

/-- The counters and the file after a write that has ended at `actualEnd`. -/
theorem Accounted.written (hfile : s.handles.lookup handle = some file)
    (hwriting : file.writing = some pending) {written : ℕ} (hle : written ≤ pending.requested)
    (hsome : file.length < file.position → 0 < written) :
    Accounted limits { s.setFile handle (wrote file written) with
      bytesUsed := s.bytesUsed - (pending.reserved - (file.position + written - file.length))
      size := update s.size file.inode (if written = 0 then s.size file.inode
        else max (s.size file.inode) (file.position + written)) } := by
  have ha := h.attached handle file hfile
  obtain ⟨hreserved, hmaximum⟩ := ha.pending pending hwriting
  have hlength := ha.length
  -- The size of the file is the length that the recording has noted.
  have hnew : (if written = 0 then s.size file.inode
      else max (s.size file.inode) (file.position + written)) =
      max file.length (file.position + written) := by
    split <;> omega
  rw [hnew]
  have hothers : ∀ name inode, name ≠ file.partialName → s.root.lookup name = some inode →
      s.size inode =
        update s.size file.inode (max file.length (file.position + written)) inode := by
    intro name inode hne hlookup
    have hother : inode ≠ file.inode := fun heq => hne (ha.only name (heq ▸ hlookup))
    exact (update_of_ne hother ..).symm
  have htotal := total_change ha.entry hothers
  have hsame := reserved_setFile hfile (wrote file written)
  have hbytes := h.bytes
  have hold := reservedOf_writing hwriting
  have hnone : reservedOf (wrote file written) = 0 := rfl
  rw [update_self, ← hlength] at htotal
  rw [bytesInRoot] at hbytes
  refine h.setFile hfile (by rfl) _ _ (by omega) ?_ ?_ ?_
  · intro maximum hmax
    exact (sub_le _ _).trans (h.maxBytes maximum hmax)
  · refine ⟨ha.entry, ha.only, ?_, ha.accounted, ha.created, ?_, ?_⟩
    · exact (update_self _ _ s.size).symm
    · intro maximum hmax
      exact Nat.max_le.mpr ⟨ha.limit maximum hmax,
        (Nat.add_le_add_left hle _).trans (hmaximum maximum hmax)⟩
    · intro pending hpending
      cases hpending
  · exact fun inode hne => update_of_ne hne ..

theorem Accounted.writeEnd {result : Option ℕ} (horderly : s.Orderly (.writeEnd handle result)) :
    ∃ s', s.writeEnd handle result = .ok s' ∧ s'.Accounted limits := by
  unfold RecordingStore.writeEnd
  split
  · exact ⟨s, rfl, h⟩
  · rename_i file hfile
    split
    · exact ⟨s, rfl, h⟩
    · rename_i pending hwriting
      have hreserved : pending.reserved ≤ s.bytesUsed := by
        have hle := le_total (w := reservedOf) hfile
        have hold := reservedOf_writing hwriting
        rw [h.bytes, reserved]
        omega
      split
      · -- The system failed: the file is as it was.
        have ha := h.attached handle file hfile
        rw [subSize_of_le hreserved, bind_ok]
        refine ⟨_, rfl, ?_⟩
        have hsame := reserved_setFile hfile { file with writing := none }
        have hold := reservedOf_writing hwriting
        have hnone : reservedOf { file with writing := none } = 0 := rfl
        have hbytes := h.bytes
        rw [bytesInRoot] at hbytes
        refine h.setFile hfile (by rfl) _ s.size ?_ ?_ ?_ fun _ _ => rfl
        · omega
        · intro maximum hmax
          exact (sub_le _ _).trans (h.maxBytes maximum hmax)
        · exact { ha with pending := fun _ hpending => nomatch hpending }
      · rename_i written
        have hwritten := h.written hfile hwriting (min_le_right written _)
          (horderly file pending hfile hwriting)
        by_cases hgrowth :
          file.position + min written pending.requested - file.length < pending.reserved
        · rw [if_pos hgrowth, subSize_of_le ((sub_le _ _).trans hreserved), bind_ok]
          exact ⟨_, rfl, hwritten⟩
        · rw [if_neg hgrowth, bind_ok]
          rw [Nat.sub_eq_zero_of_le (Nat.le_of_not_lt hgrowth), Nat.sub_zero] at hwritten
          exact ⟨_, rfl, hwritten⟩

/-! ## Creating and resuming -/

theorem Accounted.recount {files creating activeRecorders leases : ℕ}
    (hfiles : files = Table.size s.root + creating)
    (hmax : ∀ maximum, limits.maxFiles = some maximum → files ≤ maximum)
    (hleases : activeRecorders = leases) : Accounted limits { s with
      files := files
      creating := creating
      activeRecorders := activeRecorders
      leases := leases } :=
  { h with
    files := hfiles
    maxFiles := hmax
    attached := fun handle file hfile => (h.attached handle file hfile).of_same rfl rfl
    leases := hleases }

theorem Accounted.createBegin : (s.createBegin claimed).Accounted limits := by
  unfold RecordingStore.createBegin
  split_ifs with hclaimed hlimit
  · exact h
  · exact h
  · refine h.recount (by rw [h.files, add_assoc]) (fun maximum hmax => ?_) h.leases
    rw [h.limits, hmax] at hlimit
    exact succ_le_of_lt (by simpa using hlimit)

theorem Accounted.openFile (hattached : s.Attached file) (hwriting : file.writing = none)
    (halone : ∀ handle file', s.handles.lookup handle = some file' → file'.inode ≠ file.inode) :
    Accounted limits { s with
      handles := s.handles.insert s.nextHandle file
      nextHandle := s.nextHandle + 1 } := by
  have hnew : s.nextHandle ∉ s.handles := by
    intro hmem
    obtain ⟨file', hfile'⟩ := exists_of_mem hmem
    exact lt_irrefl _ (h.freshHandle _ _ hfile')
  refine ⟨h.files, ?_, h.maxFiles, h.maxBytes, ?_, ?_, h.freshInode, ?_, h.leases, h.limits⟩
  · have hnone := reservedOf_idle hwriting
    rw [h.bytes, reserved, reserved, total_insert hnew, hnone, zero_add]
    rfl
  · intro handle g hg
    obtain ⟨-, rfl⟩ | ⟨-, hg⟩ := of_lookup_insert hg
    · exact hattached.of_same rfl rfl
    · exact (h.attached handle g hg).of_same rfl rfl
  · intro h₁ h₂ g₁ g₂ hg₁ hg₂ hsame
    obtain ⟨heq₁, rfl⟩ | ⟨-, hg₁⟩ := of_lookup_insert hg₁ <;>
      obtain ⟨heq₂, rfl⟩ | ⟨-, hg₂⟩ := of_lookup_insert hg₂
    · rw [heq₁, heq₂]
    · exact absurd hsame.symm (halone h₂ g₂ hg₂)
    · exact absurd hsame (halone h₁ g₁ hg₁)
    · exact h.alone h₁ h₂ g₁ g₂ hg₁ hg₂ hsame
  · intro handle g hg
    obtain ⟨rfl, -⟩ | ⟨-, hg⟩ := of_lookup_insert hg
    · exact lt_succ_self _
    · exact lt_succ_of_lt (h.freshHandle handle g hg)

omit h

variable {name : Name} {answers : CommitAnswers}

theorem Accounted.makeEntry (h : s.Accounted limits) (hcreating : s.creating ≠ 0)
    (hname : name ∉ s.root) : Accounted limits { s with
      root := s.root.insert name s.nextInode
      size := update s.size s.nextInode 0
      nextInode := s.nextInode + 1
      creating := s.creating - 1 } := by
  have hsize : ∀ name' inode, s.root.lookup name' = some inode →
      update s.size s.nextInode 0 inode = s.size inode := by
    intro name' inode hentry
    exact update_of_ne (h.freshInode name' inode hentry).ne ..
  refine ⟨?_, ?_, h.maxFiles, h.maxBytes, ?_, h.alone, ?_, h.freshHandle, h.leases, h.limits⟩
  · have hfiles := h.files
    have hcount := size_insert (v := s.nextInode) hname
    dsimp only
    omega
  · have hold := total_congr hsize
    have hnew := total_insert (w := update s.size s.nextInode 0) (v := s.nextInode) hname
    rw [update_self, hold, zero_add] at hnew
    change s.bytesUsed = total (update s.size s.nextInode 0)
      (s.root.insert name s.nextInode) + s.reserved
    rw [hnew]
    exact h.bytes
  · intro handle g hg
    have ha := h.attached handle g hg
    refine ha.of_root ?_ ?_ (hsize _ _ ha.entry)
    · refine lookup_insert_ne ?_
      rintro rfl
      exact hname (mem_of_lookup ha.entry)
    · intro name' hname'
      obtain ⟨-, hinode⟩ | ⟨-, hname'⟩ := of_lookup_insert hname'
      · exact absurd hinode (h.freshInode _ _ ha.entry).ne'
      · exact hname'
  · intro name' inode hentry
    obtain ⟨-, rfl⟩ | ⟨-, hentry⟩ := of_lookup_insert hentry
    · exact lt_succ_self _
    · exact lt_succ_of_lt (h.freshInode name' inode hentry)

theorem Accounted.createFails (h : s.Accounted limits) (hcreating : s.creating ≠ 0) :
    ∃ files, subSize s.files 1 = .ok files ∧
      Accounted limits { s with files := files, creating := s.creating - 1 } := by
  have hfiles := h.files
  exact ⟨s.files - 1, subSize_of_le (by omega), h.recount (by omega)
    (fun maximum hmax => (sub_le _ _).trans (h.maxFiles maximum hmax)) h.leases⟩

theorem freeName_notMem {candidate : Name} (h : s.freeName collision name = some candidate) :
    candidate ∉ s.root := by
  simpa using find?_some h

theorem Accounted.createEnd (h : s.Accounted limits) {answers : CreateAnswers} :
    ∃ s', s.createEnd collision name lock maxBytes answers = .ok s' ∧ s'.Accounted limits := by
  unfold RecordingStore.createEnd
  by_cases hcreating : s.creating = 0
  · rw [if_pos hcreating]
    exact ⟨s, rfl, h⟩
  · rw [if_neg hcreating]
    obtain ⟨files, hfiles, hfails⟩ := h.createFails hcreating
    dsimp only
    split
    · rw [hfiles, bind_ok]
      exact ⟨_, rfl, hfails⟩
    · rename_i relativeName hfree
      split_ifs
      · rw [hfiles, bind_ok]
        exact ⟨_, rfl, hfails⟩
      · refine ⟨_, rfl, ?_⟩
        have hmade := h.makeEntry hcreating (freeName_notMem hfree)
        refine hmade.openFile ?_ rfl ?_
        · refine ⟨?_, ?_, ?_, rfl, rfl, fun _ _ => zero_le _, fun pending hpending => ?_⟩
          · exact lookup_insert _
          · intro name' hname'
            obtain ⟨heq, -⟩ | ⟨-, hname'⟩ := of_lookup_insert hname'
            · exact heq
            · exact absurd (h.freshInode _ _ hname') (lt_irrefl _)
          · exact (update_self _ 0 s.size).symm
          · cases hpending
        · intro handle file' hfile'
          exact (h.freshInode _ _ (h.attached handle file' hfile').entry).ne

theorem links_unique {inode : ℕ} (h : s.links inode = 1) {name' : Name}
    (hname : s.root.lookup name = some inode) (hname' : s.root.lookup name' = some inode) :
    name = name' := by
  obtain ⟨e, he⟩ := length_eq_one_iff.mp h
  have hmem : ∀ {name : Name}, s.root.lookup name = some inode →
      (⟨name, inode⟩ : Sigma fun _ : Name => ℕ) = e := by
    intro name hlookup
    have hfilter : (⟨name, inode⟩ : Sigma fun _ : Name => ℕ) ∈
        s.root.entries.filter fun e => decide (e.2 = inode) :=
      mem_filter.mpr ⟨mem_entries_iff.mpr hlookup, by simp⟩
    rw [he] at hfilter
    exact mem_singleton.mp hfilter
  exact congrArg Sigma.fst ((hmem hname).trans (hmem hname').symm)

theorem Accounted.resume (h : s.Accounted limits) {valid active : Bool}
    (horderly : s.Orderly (.resume name lock maxBytes claimed valid active)) :
    (s.resume name lock maxBytes claimed valid active).Accounted limits := by
  unfold RecordingStore.resume
  split
  · exact h
  · rename_i inode hentry
    dsimp only
    split_ifs with hrefused
    · exact h
    · refine h.openFile ?_ rfl ?_
      · refine ⟨hentry, fun name' hname' => ?_, rfl, rfl, rfl, fun maximum hmax => ?_,
          fun pending hpending => ?_⟩
        · refine links_unique ?_ hname' hentry
          by_contra hlinks
          exact hrefused (by simp [hlinks])
        · refine le_of_not_any (fun hany => hrefused ?_) hmax
          simp [hany]
        · cases hpending
      · intro handle file' hfile' hsame
        exact horderly handle file' hfile' (hsame ▸ hentry)

/-! ## Committing and dropping -/

/-- A recording that is no longer among the open ones, whose file no open one has. -/
structure Detached (s : RecordingStore Name) (file : RecordingFile Name) : Prop where
  attached : s.Attached file
  alone : ∀ handle file', s.handles.lookup handle = some file' → file'.inode ≠ file.inode

theorem Detached.owned (h : s.Detached file) {statted : Bool} (hstatted : statted = true) :
    s.partialIsOwned statted file = true := by
  simp [partialIsOwned, hstatted, h.attached.entry]

theorem Detached.name_ne (h : s.Detached file) (hfile : s.handles.lookup handle = some file')
    (hattached : s.Attached file') : file'.partialName ≠ file.partialName := by
  intro heq
  have hentry := hattached.entry
  rw [heq, h.attached.entry] at hentry
  exact h.alone handle file' hfile (Option.some.inj hentry).symm

include h

theorem Accounted.detach (hidle : s.idle handle = some file) :
    Accounted limits { s with handles := s.handles.erase handle } ∧
      Detached { s with handles := s.handles.erase handle } file := by
  obtain ⟨hfile, hwriting⟩ := idle_eq_some hidle
  constructor
  · refine ⟨h.files, ?_, h.maxFiles, h.maxBytes, ?_, ?_, h.freshInode, ?_, h.leases, h.limits⟩
    · have hnone := reservedOf_idle hwriting
      have hreserved := total_erase (w := reservedOf) hfile
      rw [hnone, add_zero] at hreserved
      rw [h.bytes, reserved, reserved, hreserved]
      rfl
    · exact fun handle' g hg => (h.attached handle' g (of_lookup_erase hg).2).of_same rfl rfl
    · intro h₁ h₂ g₁ g₂ hg₁ hg₂ hsame
      exact h.alone h₁ h₂ g₁ g₂ (of_lookup_erase hg₁).2 (of_lookup_erase hg₂).2 hsame
    · exact fun handle' g hg => h.freshHandle handle' g (of_lookup_erase hg).2
  · refine ⟨(h.attached handle file hfile).of_same rfl rfl, fun handle' g hg hsame => ?_⟩
    obtain ⟨hne, hg⟩ := of_lookup_erase hg
    exact hne (h.alone handle' handle g file hg hfile hsame)

theorem Accounted.unlink (hdetached : s.Detached file) : Accounted limits { s with
      root := s.root.erase file.partialName
      files := s.files - 1
      bytesUsed := s.bytesUsed - file.length } ∧ 1 ≤ s.files ∧ file.length ≤ s.bytesUsed := by
  have hentry := hdetached.attached.entry
  have hmem : file.partialName ∈ s.root := mem_of_lookup hentry
  have hcount := size_erase hmem
  have htotal := total_erase (w := s.size) hentry
  rw [← hdetached.attached.length] at htotal
  have hfiles := h.files
  have hbytes := h.bytes
  rw [bytesInRoot] at hbytes
  refine ⟨⟨?_, ?_, ?_, ?_, ?_, h.alone, ?_, h.freshHandle, h.leases, h.limits⟩, ?_, ?_⟩
  · dsimp only
    omega
  · change s.bytesUsed - file.length = total s.size (s.root.erase file.partialName) + s.reserved
    omega
  · exact fun maximum hmax => (sub_le _ _).trans (h.maxFiles maximum hmax)
  · exact fun maximum hmax => (sub_le _ _).trans (h.maxBytes maximum hmax)
  · intro handle g hg
    have hg' := h.attached handle g hg
    exact hg'.of_root (lookup_erase_ne (hdetached.name_ne hg hg')) (fun _ hname =>
      (of_lookup_erase hname).2) rfl
  · exact fun name inode hname => h.freshInode name inode (of_lookup_erase hname).2
  · omega
  · omega

theorem Accounted.rename (hdetached : s.Detached file) (hname : name ∉ s.root) :
    Accounted limits { s with root := (s.root.insert name file.inode).erase file.partialName } := by
  have hentry := hdetached.attached.entry
  have hne : file.partialName ≠ name := by
    rintro rfl
    exact hname (mem_of_lookup hentry)
  have hkept : (s.root.insert name file.inode).lookup file.partialName = some file.inode :=
    (lookup_insert_ne hne).trans hentry
  have hmem := mem_of_lookup hkept
  have hcount := size_erase hmem
  rw [size_insert hname] at hcount
  have htotal := total_erase (w := s.size) hkept
  rw [total_insert hname] at htotal
  refine ⟨?_, ?_, h.maxFiles, h.maxBytes, ?_, h.alone, ?_, h.freshHandle, h.leases, h.limits⟩
  · have hfiles := h.files
    dsimp only
    omega
  · have hbytes := h.bytes
    rw [bytesInRoot] at hbytes
    change s.bytesUsed = total s.size
      ((s.root.insert name file.inode).erase file.partialName) + s.reserved
    omega
  · intro handle g hg
    have hg' := h.attached handle g hg
    have hother : g.partialName ≠ name := by
      rintro rfl
      exact hname (mem_of_lookup hg'.entry)
    refine hg'.of_root ?_ ?_ rfl
    · exact (lookup_erase_ne (hdetached.name_ne hg hg')).trans (lookup_insert_ne hother)
    · intro name' hname'
      obtain ⟨-, hsame⟩ | ⟨-, hlookup⟩ := of_lookup_insert (of_lookup_erase hname').2
      · exact absurd hsame.symm (hdetached.alone handle g hg)
      · exact hlookup
  · intro name' inode hlookup
    obtain ⟨-, rfl⟩ | ⟨-, hlookup⟩ := of_lookup_insert (of_lookup_erase hlookup).2
    · exact h.freshInode _ _ hentry
    · exact h.freshInode _ _ hlookup

theorem Accounted.dropFile (hdetached : s.Detached file) {answers : DropAnswers}
    (hstatted : answers.statted = true) :
    ∃ s', s.dropFile answers file = .ok s' ∧ s'.Accounted limits := by
  have howned := hdetached.owned hstatted
  have haccounted := hdetached.attached.accounted
  have hcreated := hdetached.attached.created
  unfold RecordingStore.dropFile
  rw [if_neg (by simp [haccounted])]
  by_cases hclaimed : answers.claimed = true
  · rw [if_neg (by simp [hclaimed])]
    by_cases hresumed : file.resumed = true
    · rw [if_pos hresumed, if_pos howned]
      exact ⟨s, rfl, h⟩
    · rw [if_neg hresumed]
      have hexists : file.partialExists = true := by simp [hcreated, hresumed]
      by_cases hpreserved : file.preservePartial = true
      · simp only [hexists, hpreserved, howned, haccounted]
        exact ⟨s, rfl, h⟩
      · obtain ⟨hunlinked, hfiles, hbytes⟩ := h.unlink hdetached
        simp only [hexists, hpreserved, howned, haccounted, Bool.not_false, Bool.and_true,
          if_true, subSize_of_le hfiles, subSize_of_le hbytes, bind_ok]
        exact ⟨_, rfl, hunlinked⟩
  · rw [if_pos (by simp [hclaimed])]
    exact ⟨s, rfl, h⟩

omit h

/-- What a commit leaves to the drop: a recording that is not open, or one that is done with. -/
def Finished (s : RecordingStore Name) (file : RecordingFile Name) : Prop :=
  s.Detached file ∨ (file.fileAccounted = false ∧ file.partialExists = false)

include h

theorem Accounted.publish (hdetached : s.Detached file) (hstatted : answers.restatted = true) :
    ∃ result s', s.publish collision answers file = .ok (result, file, s') ∧ s'.Accounted limits ∧
      ∀ e, result = .error e → s'.Detached file := by
  unfold RecordingStore.publish
  split
  · exact ⟨_, s, rfl, h, fun _ _ => hdetached⟩
  · rename_i candidate hfree
    have hname := freeName_notMem hfree
    split
    · exact ⟨_, s, rfl, h, fun _ _ => hdetached⟩
    · rw [if_pos (hdetached.owned hstatted)]
      exact ⟨_, s, rfl, h, fun _ _ => hdetached⟩
    · have howned : partialIsOwned answers.restatted file
          { s with root := s.root.insert candidate file.inode } = true := by
        have hne : file.partialName ≠ candidate := by
          rintro rfl
          exact hname (mem_of_lookup hdetached.attached.entry)
        simp only [partialIsOwned, hstatted, Bool.true_and, decide_eq_true_eq]
        exact (lookup_insert_ne hne).trans hdetached.attached.entry
      rw [if_pos howned]
      exact ⟨_, _, rfl, h.rename hdetached hname, fun e he => nomatch he⟩

theorem Accounted.commitInner (hdetached : s.Detached file) (hstatted : answers.statted = true)
    (hrestatted : answers.restatted = true) :
    ∃ result file' s', s.commitInner collision answers file = .ok (result, file', s') ∧
      s'.Accounted limits ∧
      s'.Finished file' := by
  have hpreserved : s.Detached { file with preservePartial := true } :=
    ⟨{ hdetached.attached with }, hdetached.alone⟩
  unfold RecordingStore.commitInner
  dsimp only
  have howned := hpreserved.owned hstatted
  split_ifs with hcancelled hsynced hlater hlost hbegun hsame
  · exact ⟨_, _, s, rfl, h, .inl hpreserved⟩
  · exact ⟨_, _, s, rfl, h, .inl hpreserved⟩
  · exact ⟨_, _, s, rfl, h, .inl hpreserved⟩
  · simp [howned] at hlost
  · exact ⟨_, _, s, rfl, h, .inl hpreserved⟩
  · exact ⟨_, _, s, rfl, h, .inr ⟨rfl, rfl⟩⟩
  · obtain ⟨result, s', hpublish, haccounted, hfailed⟩ := h.publish hpreserved hrestatted
    rw [hpublish, bind_ok]
    cases result with
    | error e => exact ⟨_, _, s', rfl, haccounted, .inl (hfailed e rfl)⟩
    | ok relativeName => exact ⟨_, _, s', rfl, haccounted, .inr ⟨rfl, rfl⟩⟩

theorem Accounted.commit {dropAnswers : DropAnswers}
    (horderly : s.Orderly (.commit handle answers dropAnswers)) :
    ∃ s', s.commit collision handle answers dropAnswers = .ok s' ∧ s'.Accounted limits := by
  obtain ⟨hstatted, hrestatted, hdrop⟩ := horderly
  unfold RecordingStore.commit
  split
  · exact ⟨s, rfl, h⟩
  · rename_i file hidle
    obtain ⟨hrest, hdetached⟩ := h.detach hidle
    obtain ⟨result, file', s', hinner, haccounted, hfinished⟩ :=
      hrest.commitInner hdetached hstatted hrestatted
    rw [hinner, bind_ok]
    rcases hfinished with hdetached' | ⟨hdone, hgone⟩
    · exact haccounted.dropFile hdetached' hdrop
    · exact ⟨s', if_pos (by simp [hdone, hgone]), haccounted⟩

/-! ## Whole runs -/

theorem step_accounted {op : Op Name} (horderly : s.Orderly op) :
    ∃ s', step collision s op = .ok s' ∧ s'.Accounted limits := by
  cases op with
  | createBegin claimed => exact ⟨_, rfl, h.createBegin⟩
  | createEnd name lock maxBytes answers => exact h.createEnd
  | resume name lock maxBytes claimed valid active => exact ⟨_, rfl, h.resume horderly⟩
  | writeBegin handle requested claimed => exact ⟨_, rfl, h.writeBegin⟩
  | writeEnd handle result => exact h.writeEnd horderly
  | seek handle position claimed => exact ⟨_, rfl, h.seek⟩
  | preserve handle =>
    unfold step
    dsimp only
    split
    · exact ⟨s, rfl, h⟩
    · rename_i file hfile
      have ha := h.attached handle file hfile
      exact ⟨_, rfl, h.setFile_same hfile (by rfl) rfl { ha with }⟩
  | setFinalRelativeName handle name =>
    unfold step
    dsimp only
    split
    · exact ⟨s, rfl, h⟩
    · rename_i file hidle
      obtain ⟨hfile, -⟩ := idle_eq_some hidle
      have ha := h.attached handle file hfile
      exact ⟨_, rfl, h.setFile_same hfile (by rfl) rfl { ha with }⟩
  | commit handle answers dropAnswers => exact h.commit horderly
  | drop handle answers =>
    unfold step
    dsimp only
    split
    · exact ⟨s, rfl, h⟩
    · rename_i file hidle
      obtain ⟨hrest, hdetached⟩ := h.detach hidle
      exact hrest.dropFile hdetached horderly
  | acquireRecorder =>
    unfold step
    dsimp only
    split_ifs
    · exact ⟨s, rfl, h⟩
    · exact ⟨_, rfl, h.recount h.files h.maxFiles (congrArg (· + 1) h.leases)⟩
  | dropLease =>
    unfold step
    by_cases hleases : s.leases = 0
    · rw [if_pos hleases]
      exact ⟨s, rfl, h⟩
    · have hsome : 1 ≤ s.activeRecorders := by
        rw [h.leases]
        exact one_le_iff_ne_zero.mpr hleases
      rw [if_neg hleases, subSize_of_le hsome, bind_ok]
      exact ⟨_, rfl, h.recount h.files h.maxFiles (congrArg (· - 1) h.leases)⟩

omit h

/-- A root as `open` may find it: the inodes that the system will hand out are new, and its bytes
fit the counter. -/
structure ProperRoot (root : Table Name ℕ) (size : ℕ → ℕ) (nextInode : ℕ) : Prop where
  fresh : ∀ name inode, root.lookup name = some inode → inode < nextInode
  fits : total size root < 2 ^ 64

theorem scan_accounted {root : Table Name ℕ} {nextInode : ℕ}
    (hroot : ProperRoot root size nextInode) (h : scan limits root size nextInode = some s) :
    s.Accounted limits := by
  have hbytes := scan_bytes 0 (by rw [zero_add]; exact hroot.fits)
  unfold scan at h
  dsimp only at h
  rw [hbytes, zero_add] at h
  split_ifs at h with hlimits
  cases h
  rw [Bool.or_eq_true, not_or] at hlimits
  refine ⟨rfl, rfl, fun maximum hmax => le_of_not_any hlimits.2 hmax,
    fun maximum hmax => le_of_not_any hlimits.1 hmax, ?_, ?_, hroot.fresh, ?_, rfl, rfl⟩
  · intro handle file hfile
    cases hfile
  · intro handle handle' file file' hfile
    cases hfile
  · intro handle file hfile
    cases hfile

/-- A store without limits, over a root without files whose names are numbers. -/
def emptyStore : RecordingStore ℕ where
  limits := ⟨none, none, 1⟩
  bytesUsed := 0
  files := 0
  activeRecorders := 0
  root := ∅
  size := fun _ => 0
  nextInode := 0
  handles := ∅
  nextHandle := 0
  creating := 0
  leases := 0

/-- A recording is created, and these many bytes are written to it. -/
def createAndWrite (bytes : ℕ) : List (Op ℕ) :=
  [.createBegin true, .createEnd 0 false none ⟨true, true, true⟩, .writeBegin 0 bytes true,
    .writeEnd 0 (some bytes)]

/-- **The quotas are exact**: in a run of orderly operations no subtraction underflows, the counters
are the bytes and files of the root and what is reserved, and the limits are kept. -/
theorem run_root_accounted (collision : Name → ℕ → Option Name) {root : Table Name ℕ} {size : ℕ → ℕ}
    {nextInode : ℕ} (hroot : ProperRoot root size nextInode)
    (hscan : scan limits root size nextInode = some s) (ops : List (Op Name))
    (horderly : EveryStepOf (step collision) Orderly s ops) : ∃ s', s.run collision ops = .ok s' ∧
      s'.bytesUsed = s'.bytesInRoot + s'.reserved ∧ s'.files = Table.size s'.root + s'.creating ∧
      ((∀ handle file, s'.handles.lookup handle = some file → file.writing = none) →
        s'.bytesUsed = s'.bytesInRoot) ∧
      (∀ maximum, limits.maxBytes = some maximum → s'.bytesUsed ≤ maximum) ∧
      (∀ maximum, limits.maxFiles = some maximum → s'.files ≤ maximum) ∧
      ∀ handle file maximum, s'.handles.lookup handle = some file → file.maxBytes = some maximum →
        s'.size file.inode ≤ maximum := by
  obtain ⟨s', hrun, h⟩ := foldlM_induct
    (fun s op haccounted horderly => step_accounted haccounted horderly) ops s
    (scan_accounted hroot hscan) horderly
  refine ⟨s', hrun, h.bytes, h.files, ?_, h.maxBytes, h.maxFiles, ?_⟩
  · intro hidle
    rw [h.bytes, reserved_of_idle hidle, add_zero]
  · intro handle file maximum hfile hmax
    have ha := h.attached handle file hfile
    rw [← ha.length]
    exact ha.limit maximum hmax

theorem run_root_accounted_write :
    EveryStepOf (step fun _ _ => none) Orderly emptyStore (createAndWrite 3) ∧
      ∃ s', emptyStore.run (fun _ _ => none) (createAndWrite 3) = .ok s' ∧ s'.bytesUsed = 3 ∧
        s'.bytesUsed = s'.bytesInRoot + s'.reserved := by
  have hroot : ProperRoot (∅ : Table ℕ ℕ) (fun _ => 0) 0 :=
    ⟨(fun _ _ h => nomatch h), by decide⟩
  have horderly : EveryStepOf (step fun _ _ => none) Orderly emptyStore (createAndWrite 3) := by
    refine ⟨trivial, fun s₁ h₁ => ?_⟩
    cases h₁
    refine ⟨trivial, fun s₂ h₂ => ?_⟩
    cases h₂
    refine ⟨trivial, fun s₃ h₃ => ?_⟩
    cases h₃
    refine ⟨fun file pending hfile hwriting hlt => ?_, fun _ _ => trivial⟩
    cases hfile
    cases hlt
  have hscan : scan ⟨none, none, 1⟩ (∅ : Table ℕ ℕ) (fun _ => 0) 0 = some emptyStore := rfl
  obtain ⟨s', hrun, hbytes, -⟩ := run_root_accounted _ hroot hscan _ horderly
  refine ⟨horderly, s', hrun, ?_, hbytes⟩
  cases hrun
  rfl

/-! ## Runs in which the counters go wrong -/

/-- What is miscounted: a write of nothing past the end, a recording that is resumed while it is
open, a recording whose entry cannot be looked up when it is dropped, and sizes beyond the counter.
-/
theorem run_miscounts : (∃ s, emptyStore.run (fun _ _ => none)
        (createAndWrite 3 ++ [.seek 0 5 true, .writeBegin 0 0 true, .writeEnd 0 (some 0)]) = .ok s ∧
      s.bytesUsed = 5 ∧ s.bytesInRoot = 3) ∧ (∃ s, emptyStore.run (fun _ _ => none)
        (createAndWrite 30 ++ [.resume 0 false none true true true, .writeBegin 0 10 true,
          .writeEnd 0 (some 10), .writeBegin 1 10 true, .writeEnd 1 (some 10)]) = .ok s ∧
      s.bytesUsed = 50 ∧ s.bytesInRoot = 40) ∧ emptyStore.run (fun _ _ => none)
      (createAndWrite 30 ++ [.resume 0 false none true true true, .drop 0 ⟨true, true⟩,
        .drop 1 ⟨true, true⟩]) = .error .overflow ∧
    (∃ s, emptyStore.run (fun _ _ => none) (createAndWrite 30 ++ [.drop 0 ⟨true, false⟩]) = .ok s ∧
      s.files = 0 ∧ Table.size s.root = 1) ∧ (∃ s : RecordingStore ℕ, scan ⟨none, none, 1⟩
        (((∅ : Table ℕ ℕ).insert 0 0).insert 1 1 |>.insert 2 2) (fun _ => 2 ^ 63 - 1) 3 = some s ∧
      s.bytesUsed < s.bytesInRoot) :=
  ⟨⟨_, rfl, rfl, rfl⟩, ⟨_, rfl, rfl, rfl⟩, rfl, ⟨_, rfl, rfl, rfl⟩, ⟨_, rfl, by decide⟩⟩

end RecordingStore

end Oxiroute.Rtmp
