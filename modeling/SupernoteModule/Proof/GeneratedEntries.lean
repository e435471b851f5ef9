import SupernoteModule.Proof.Disk

/-!
# Rules for the functions on generated entries

Others act on the tree between two calls, a call can be refused or break off, and an interrupt can
come after it. The rules say what is left to show of the calls that succeed.
-/

namespace SupernoteModule.Filesystem

open SupernoteModule.Generation SupernoteModule.Generation.GenerationPlan SupernoteModule.Lib
open SupernoteModule.Lib.Program SupernoteModule.Python

/-! ### One call -/

def DiskOp.readOnly : DiskOp → Bool
  | .openDirectory _ | .lstat _ | .readBytes _ | .inspect => true
  | .makeTemporaryDirectory _ | .makeDirectory _ | .writeBytes _ _ | .changeMode _ _ | .rename _ _
  | .unlink _ | .removeTree _ => false

/-- Either nothing happens or all of it. -/
def DiskOp.atomic : DiskOp → Bool
  | .writeBytes _ _ | .removeTree _ => false
  | .makeTemporaryDirectory _ | .makeDirectory _ | .changeMode _ _ | .rename _ _ | .unlink _
  | .openDirectory _ | .lstat _ | .readBytes _ | .inspect => true

variable {before after : FileTree} {op : DiskOp} {answer : Except DiskError op.Answer}

theorem act_readOnly (hread : op.readOnly) {host : Host} {reply : op.Answer}
    (hact : act host before op = .ok (reply, after)) : after = before := by
  cases op with
  | openDirectory path =>
      rw [act] at hact
      split at hact
      · exact (Prod.mk.inj (Except.ok.inj hact)).2.symm
      all_goals cases hact
  | lstat path =>
      rw [act] at hact
      split at hact
      · exact (Prod.mk.inj (Except.ok.inj hact)).2.symm
      · cases hact
  | readBytes path =>
      rw [act] at hact
      split at hact
      · exact (Prod.mk.inj (Except.ok.inj hact)).2.symm
      all_goals cases hact
  | inspect => exact (Prod.mk.inj (Except.ok.inj hact)).2.symm
  | _ => cases hread

theorem breaksOff_atomic (hatomic : op.atomic) (hbreaks : BreaksOff op before after) :
    after = before := by
  cases op with
  | writeBytes path content => cases hatomic
  | removeTree path => cases hatomic
  | _ => exact hbreaks

theorem Performs.effect (hatomic : op.atomic) (hperforms : Performs before op answer after) :
    after = before ∨ ∃ host reply, act host before op = .ok (reply, after) := by
  cases hperforms with
  | answers host hact => exact .inr ⟨host, _, hact⟩
  | refuses host hact => exact .inl rfl
  | breaksOff hbreaks _ => exact .inl (breaksOff_atomic hatomic hbreaks)
  | interrupted host hact => exact .inr ⟨host, _, hact⟩
  | ignores hbreaks => cases hatomic
  | follows => exact .inl rfl

theorem Performs.eq_of_readOnly (hread : op.readOnly)
    (hperforms : Performs before op answer after) : after = before := by
  have hatomic : op.atomic := by
    cases op <;> first | rfl | cases hread
  rcases hperforms.effect hatomic with hsame | ⟨host, reply, hact⟩
  · exact hsame
  · exact act_readOnly hread hact

/-- Behind a missing entry there is nothing, even where a link is followed out of the tree. -/
theorem Performs.find_of_fileNotFound {path : List String}
    (hperforms : Performs before (.lstat path) (.error (.os .fileNotFound)) after) :
    before.find path = none := by
  cases hperforms with
  | refuses host hact =>
      rw [act] at hact
      split at hact
      · cases hact
      · rename_i hnone
        exact Option.map_eq_none_iff.mp hnone
  | breaksOff _ herror => rcases herror with herror | herror <;> cases herror
  | follows _ hleads hne hlink =>
      obtain ⟨below, rfl⟩ := hleads
      have hbelow : below ≠ [] := by
        rintro rfl
        exact hne (List.append_nil _).symm
      apply Childless.find_append (childless_of_entryKind _) hbelow
      rw [hlink]
      decide

/-! ### Rules for calls -/

variable {foreign : FileTree → FileTree → Prop} {promise : Promise (diskSetting foreign)}
  {pre post : Assertion promise}

theorem meets_readOnly (op : DiskOp) (hrefl : ∀ tree, promise.change tree tree)
    (hread : op.readOnly) : Meets (fun _ => pre) pre (call op : Disk op.Answer) := by
  apply Meets.call op
  intro answer before after hpre hperforms
  obtain rfl := Performs.eq_of_readOnly hread hperforms
  exact ⟨hrefl after, hpre⟩

/-- A call that may or may not be done, and keeps what is known either way. -/
theorem meets_closed (op : DiskOp) (hrefl : ∀ tree, promise.change tree tree) (hatomic : op.atomic)
    (hstep : ∀ host before after reply, pre.holds before →
      act host before op = .ok (reply, after) → promise.change before after ∧ pre.holds after) :
    Meets (fun _ => pre) pre (call op : Disk op.Answer) := by
  apply Meets.call op
  intro answer before after hpre hperforms
  rcases Performs.effect hatomic hperforms with rfl | ⟨host, reply, hact⟩
  · exact ⟨hrefl after, hpre⟩
  · exact hstep host before after reply hpre hact

/-- A call that leads from one assertion to the next. -/
theorem meets_atomic (op : DiskOp) (hrefl : ∀ tree, promise.change tree tree) (hatomic : op.atomic)
    (hplain : ∀ path, op ≠ .lstat path)
    (hstep : ∀ host before after reply, pre.holds before →
      act host before op = .ok (reply, after) → promise.change before after ∧ post.holds after) :
    Meets (outcome (fun _ => post) fun _ => .kept promise) pre (call op : Disk op.Answer) := by
  apply Meets.call op
  intro answer before after hpre hperforms
  cases hperforms with
  | answers host hact => exact hstep host before after _ hpre hact
  | refuses host hact => exact ⟨hrefl before, pre.always hpre⟩
  | breaksOff hbreaks _ =>
      obtain rfl := breaksOff_atomic hatomic hbreaks
      exact ⟨hrefl after, pre.always hpre⟩
  | interrupted host hact =>
      obtain ⟨hchange, hpost⟩ := hstep host before after _ hpre hact
      exact ⟨hchange, post.always hpost⟩
  | ignores hbreaks => cases hatomic
  | follows => exact absurd rfl (hplain _)

theorem meets_writeBytes {path : List String} {content : Bytes}
    (hstep : ∀ host before after, pre.holds before →
      act host before (.writeBytes path content) = .ok ((), after) →
      promise.change before after ∧ post.holds after)
    (hbreaks : ∀ before after, pre.holds before →
      BreaksOff (.writeBytes path content) before after →
      promise.change before after ∧ promise.always after)
    (hrefl : ∀ tree, promise.change tree tree) :
    Meets (outcome (fun _ => post) fun _ => .kept promise) pre
      (Disk.writeBytes path content) := by
  apply Meets.call (DiskOp.writeBytes path content)
  intro answer before after hpre hperforms
  cases hperforms with
  | answers host hact => exact hstep host before after hpre hact
  | refuses host hact => exact ⟨hrefl before, pre.always hpre⟩
  | breaksOff hbreak _ => exact hbreaks before after hpre hbreak
  | interrupted host hact =>
      obtain ⟨hchange, hpost⟩ := hstep host before after hpre hact
      exact ⟨hchange, post.always hpost⟩

theorem breaksOff_removeTree {host : Host} {path : List String}
    (hact : act host before (.removeTree path) = .ok ((), after)) :
    BreaksOff (.removeTree path) before after := by
  obtain ⟨-, rfl⟩ := Prod.mk.inj (Except.ok.inj hact)
  exact ⟨fun place hplace => FileTree.look_alter_of_not_prefix hplace,
    fun place hplace => FileTree.find_alter_of_not_overlap hplace⟩

theorem meets_removeTree {path : List String}
    (hbreaks : ∀ before after, pre.holds before → BreaksOff (.removeTree path) before after →
      promise.change before after ∧ pre.holds after)
    (hrefl : ∀ tree, promise.change tree tree) :
    Meets (fun _ => pre) pre (Disk.removeTree path) := by
  apply Meets.call (DiskOp.removeTree path)
  intro answer before after hpre hperforms
  cases hperforms with
  | answers host hact => exact hbreaks before after hpre (breaksOff_removeTree hact)
  | refuses host hact => exact ⟨hrefl before, hpre⟩
  | breaksOff hbreak _ => exact hbreaks before after hpre hbreak
  | interrupted host hact => exact hbreaks before after hpre (breaksOff_removeTree hact)
  | ignores hbreak => exact hbreaks before after hpre hbreak

/-- A check that reads the tree once: if it passes, what it says is known. -/
theorem meets_inspecting {validate : FileTree → Except PlanError Unit}
    (hrefl : ∀ tree, promise.change tree tree)
    (hok : ∀ tree, pre.holds tree → validate tree = .ok () → post.holds tree) :
    Meets (outcome (fun _ => post) fun _ => pre) pre (Disk.inspecting validate) := by
  have hcall : Meets (outcome (fun tree => if (validate tree).isOk then post else pre) fun _ => pre)
      pre (call DiskOp.inspect : Disk FileTree) := by
    apply Meets.call DiskOp.inspect
    intro answer before after hpre hperforms
    have hsame := Performs.eq_of_readOnly rfl hperforms
    subst hsame
    refine ⟨hrefl after, ?_⟩
    cases hperforms with
    | answers host hact =>
        obtain ⟨rfl, -⟩ := Prod.mk.inj (Except.ok.inj hact)
        change (ite _ post pre).holds after
        split
        · rename_i hvalid
          apply hok after hpre
          cases hresult : validate after with
          | ok value => rfl
          | error error => rw [hresult] at hvalid; cases hvalid
        · exact hpre
    | refuses host hact => exact hpre
    | breaksOff _ _ => exact hpre
    | interrupted host hact => exact hpre
  apply Meets.bind hcall
  · intro tree
    apply Meets.ofExcept
    cases hresult : validate tree with
    | ok value =>
        change (if (validate tree).isOk = true then post else pre) ≤ post
        rw [if_pos (by rw [hresult]; rfl)]
        exact post.le_refl
    | error error =>
        change (if (validate tree).isOk = true then post else pre) ≤ pre
        rw [if_neg (by rw [hresult]; exact Bool.false_ne_true)]
        exact pre.le_refl
  · exact fun _ => pre.le_refl

/-! ### Rules for functions -/

theorem meets_requirePersisted {path : List String} :
    Meets (fun _ => pre) pre (Disk.requirePersisted path) :=
  Meets.ofExcept pre.le_refl

theorem meets_forEach_kept {Item : Type} {body : Item → Disk Unit} {items : List Item}
    (hbody : ∀ item ∈ items, Meets (fun _ => pre) pre (body item)) :
    Meets (fun _ => pre) pre (Program.forEach body items) := by
  have hloop : Meets (outcome (fun _ => pre) fun _ => pre) pre (Program.forEach body items) := by
    apply Meets.forEach fun _ => pre
    intro first item rest hitems
    apply (hbody item (by simp [hitems])).consequence pre.le_refl
    intro result
    cases result <;> exact pre.le_refl
  apply hloop.consequence pre.le_refl
  intro result
  cases result <;> exact pre.le_refl

theorem Meets.bind_kept {Output Result : Type} {program : Disk Output} {rest : Output → Disk Result}
    (hfirst : Meets (fun _ => pre) pre program)
    (hrest : ∀ output, Meets (fun _ => pre) pre (rest output)) :
    Meets (fun _ => pre) pre (program >>= rest) :=
  Meets.bind hfirst hrest fun _ => pre.le_refl

theorem meets_openContainedParent (hrefl : ∀ tree, promise.change tree tree) {path : List String} :
    Meets (fun _ => pre) pre (Disk.openContainedParent path) := by
  apply Meets.bind_kept meets_requirePersisted
  intro _
  apply Meets.bind_kept (meets_readOnly (.openDirectory []) hrefl rfl)
  intro _
  apply meets_forEach_kept
  intro current _
  exact meets_readOnly (.openDirectory current) hrefl rfl

theorem meets_ensureDirectory (hrefl : ∀ tree, promise.change tree tree) {root : String}
    {current : List String}
    (hgrow : ∀ host before after reply, pre.holds before →
      act host before (.makeDirectory current) = .ok (reply, after) →
      promise.change before after ∧ pre.holds after) :
    Meets (fun _ => pre) pre (Disk.ensureDirectory root current) := by
  have hopen : Meets (fun _ => pre) pre (Disk.openDirectory current) :=
    meets_readOnly (.openDirectory current) hrefl rfl
  apply Meets.bind_kept (Meets.attempt hopen)
  intro opened
  split
  · exact Meets.pure pre.le_refl
  · have hmake : Meets (fun _ => pre) pre (Disk.makeDirectory current) :=
      meets_closed (.makeDirectory current) hrefl rfl hgrow
    apply Meets.bind_kept (Meets.attempt hmake)
    intro made
    split
    · exact hopen
    · exact hopen
    · exact Meets.raised pre.le_refl
  · exact Meets.raised pre.le_refl
  · exact Meets.raised pre.le_refl

theorem meets_ensureParents (hrefl : ∀ tree, promise.change tree tree) {root : String}
    {path : List String}
    (hgrow : ∀ current ∈ ancestors path, ∀ host before after reply, pre.holds before →
      act host before (.makeDirectory current) = .ok (reply, after) →
      promise.change before after ∧ pre.holds after) :
    Meets (fun _ => pre) pre (Disk.ensureContainedParentDirectories root path) := by
  apply Meets.bind_kept meets_requirePersisted
  intro _
  split
  · exact Meets.pure pre.le_refl
  · apply Meets.bind_kept (meets_readOnly (.openDirectory []) hrefl rfl)
    intro _
    apply meets_forEach_kept
    intro current hcurrent
    exact meets_ensureDirectory hrefl (hgrow current hcurrent)

theorem meets_makeParents (hrefl : ∀ tree, promise.change tree tree) {path : List String}
    (hgrow : ∀ current ∈ ancestors path, ∀ host before after reply, pre.holds before →
      act host before (.makeDirectory current) = .ok (reply, after) →
      promise.change before after ∧ pre.holds after) :
    Meets (fun _ => pre) pre (Disk.makeParents path) := by
  apply meets_forEach_kept
  intro current hcurrent
  have hmake : Meets (fun _ => pre) pre (Disk.makeDirectory current) :=
    meets_closed (.makeDirectory current) hrefl rfl (hgrow current hcurrent)
  apply Meets.bind_kept (Meets.attempt hmake)
  intro made
  split
  · exact Meets.pure pre.le_refl
  · have hlook : Meets (fun _ => pre) pre (Disk.lstat current) :=
      meets_readOnly (.lstat current) hrefl rfl
    apply Meets.bind_kept (Meets.attempt hlook)
    intro found
    split
    · exact Meets.pure pre.le_refl
    · exact Meets.raised pre.le_refl
    · exact Meets.raised pre.le_refl
    · exact Meets.raised pre.le_refl
  · exact Meets.raised pre.le_refl

/-- What is known of a path at which `entry_kind` finds nothing. -/
theorem meets_entryKind (hrefl : ∀ tree, promise.change tree tree) {path : List String}
    (habsent : ∀ tree, pre.holds tree → tree.find path = none → post.holds tree) :
    Meets (outcome (fun kind => if kind.isNone then post else pre) fun _ => pre) pre
      (Disk.entryKind path) := by
  have hlook : Meets
      (outcome (fun _ => pre) fun error => if error = .os .fileNotFound then post else pre) pre
      (Disk.lstat path) := by
    apply Meets.call (DiskOp.lstat path)
    intro answer before after hpre hperforms
    have hsame := Performs.eq_of_readOnly rfl hperforms
    subst hsame
    refine ⟨hrefl after, ?_⟩
    cases answer with
    | ok kind => exact hpre
    | error error =>
        change (ite _ post pre).holds after
        split
        · rename_i hmissing
          subst hmissing
          exact habsent after hpre (Performs.find_of_fileNotFound hperforms)
        · exact hpre
  have hattempt : Meets (outcome (fun result => outcome (fun _ => pre)
      (fun error => if error = .os .fileNotFound then post else pre) result) fun _ => pre) pre
      (Disk.lstat path).attempt := Meets.attempt hlook
  apply Meets.bind hattempt
  · intro result
    split
    · exact Meets.pure pre.le_refl
    · exact Meets.pure post.le_refl
    · rename_i error hother
      have hne : error ≠ .os .fileNotFound := fun hsame => hother hsame
      apply Meets.raised
      change (if error = .os .fileNotFound then post else pre) ≤ pre
      rw [if_neg hne]
      exact pre.le_refl
  · exact fun _ => pre.le_refl

theorem meets_replaceGenerated (hrefl : ∀ tree, promise.change tree tree) {root : String}
    {staged destination : List String}
    (hgrow : ∀ current ∈ ancestors destination, ∀ host before after reply, pre.holds before →
      act host before (.makeDirectory current) = .ok (reply, after) →
      promise.change before after ∧ pre.holds after)
    (hmove : ∀ host before after reply, pre.holds before →
      act host before (.rename staged destination) = .ok (reply, after) →
      promise.change before after ∧ post.holds after) :
    Meets (outcome (fun _ => post) fun _ => .kept promise) pre
      (Disk.replaceGeneratedRegularNoFollow root staged destination) := by
  have hrename : Meets (outcome (fun _ => post) fun _ => .kept promise) pre
      (Disk.rename staged destination) :=
    meets_atomic (.rename staged destination) hrefl rfl (fun _ hsame => by cases hsame) hmove
  have hkind : Meets (outcome (fun kind => if kind.isNone then pre else pre) fun _ => pre) pre
      (Disk.entryKind destination) :=
    meets_entryKind hrefl fun _ hholds _ => hholds
  apply Meets.bind (meets_ensureParents hrefl hgrow) _ fun _ => pre.le_kept
  intro _
  apply Meets.bind (meets_openContainedParent hrefl) _ fun _ => pre.le_kept
  intro _
  apply Meets.bind (meets_openContainedParent hrefl) _ fun _ => pre.le_kept
  intro _
  apply Meets.bind (meets_readOnly (.lstat staged) hrefl rfl) _ fun _ => pre.le_kept
  intro sourceKind
  split
  · exact Meets.raised pre.le_kept
  · apply Meets.bind hkind _ fun _ => pre.le_kept
    intro destinationKind
    have hpre : outcome (fun kind : Option EntryKind => if kind.isNone then pre else pre)
        (fun _ => pre) (.ok destinationKind : Except DiskError (Option EntryKind)) ≤ pre := by
      change (ite _ pre pre) ≤ pre
      rw [ite_self]
      exact pre.le_refl
    apply Meets.strengthen _ hpre
    split
    · exact Meets.raised pre.le_kept
    · exact hrename

theorem meets_removeGenerated (hrefl : ∀ tree, promise.change tree tree) {root : String}
    {destination : List String}
    (hremove : ∀ host before after reply, pre.holds before →
      act host before (.unlink destination) = .ok (reply, after) →
      promise.change before after ∧ post.holds after) :
    Meets (outcome (fun _ => post) fun _ => .kept promise) pre
      (Disk.removeGeneratedRegularNoFollow root destination) := by
  apply Meets.bind (meets_openContainedParent hrefl) _ fun _ => pre.le_kept
  intro _
  apply Meets.bind (meets_readOnly (.lstat destination) hrefl rfl) _ fun _ => pre.le_kept
  intro kind
  split
  · exact Meets.raised pre.le_kept
  · exact meets_atomic (.unlink destination) hrefl rfl (fun _ hsame => by cases hsame) hremove

end SupernoteModule.Filesystem
