import SupernoteModule.Proof.HashedSourceTree
import SupernoteModule.Python.JsonText

/-!
# The inputs of two packages with one manifest

The manifest names every payload file with its digest, so two packages with one manifest have the
same payload. What a source directory selects is payload, and what selects the source directories is
payload too.
-/

namespace SupernoteModule.Npm

open SupernoteModule.Generation SupernoteModule.Lib SupernoteModule.Python

/-! ### Files -/

section Files

variable {installation : Installation}

theorem Installation.Holds.unique {relative : String} {names : List String} {left right : Bytes}
    (hleft : installation.Holds relative names left)
    (hright : installation.Holds relative names right) : left = right := by
  obtain ⟨physical, mode, hplace, hfile⟩ := hleft
  obtain ⟨other, otherMode, hother, hotherFile⟩ := hright
  obtain rfl : physical = other := Option.some.inj (hplace.symm.trans hother)
  rw [hfile] at hotherFile
  simp only [Option.some.injEq, FileTree.file.injEq] at hotherFile
  exact hotherFile.2

theorem Installation.Holds.mem_contents {relative : String} {names : List String} {content : Bytes}
    (hholds : installation.Holds relative names content) :
    content ∈ contents installation.disk := by
  obtain ⟨physical, mode, _, hfile⟩ := hholds
  exact Npm.mem_contents hfile

theorem holds_below {relative : String} {names : List String} {content : Bytes}
    (hnames : ∀ name ∈ names, IsName name) :
    installation.Holds (below relative names) [] content ↔
      installation.Holds relative names content := by
  rw [Installation.Holds, Installation.Holds, place_below hnames]

theorem readFile_eq_ok {physical : List String} {code label : String} {content : Bytes}
    (hok : installation.readFile physical code label = .ok content) :
    ∃ mode, installation.disk.find physical = some (.file mode content) := by
  unfold Installation.readFile at hok
  split at hok
  case h_1 mode found hfind =>
    obtain rfl : found = content := by simpa using hok
    exact ⟨mode, hfind⟩
  case h_2 => simp at hok

theorem readRegular_of_find {disk : FileTree} {path : List String} {mode : Nat} {content : Bytes}
    (hfind : disk.find path = some (.file mode content)) :
    disk.readRegular path = some (content, mode) := by
  rw [FileTree.readRegular, hfind]

/-- The names of a physical path are components. -/
theorem isComponent_of_realpath {path physical : List String}
    (hpath : ∀ part ∈ path, IsComponent part)
    (hrealpath : realpath installation.disk path = some physical) :
    ∀ part ∈ physical, IsComponent part := by
  refine names_of_resolve ?_ (by simp) ?_ hrealpath
  · intro place target hlink name hname
    obtain ⟨entry, hentry, hkind⟩ := Option.map_eq_some_iff.mp hlink
    cases entry with
    | symlink mode text =>
        obtain rfl : linkTarget text = target := by simpa using hkind
        obtain ⟨part, hpart, hsegment⟩ := List.mem_map.mp hname
        unfold segmentOf at hsegment
        split at hsegment
        case isTrue => simp at hsegment
        case isFalse hproper =>
          split at hsegment
          case isTrue => simp at hsegment
          case isFalse =>
            obtain rfl : part = name := by simpa using hsegment
            exact ⟨by tauto, by tauto, not_mem_of_mem_split hpart⟩
    | file mode content => simp at hkind
    | directory mode children => simp at hkind
    | other mode => simp at hkind
  · intro name hname
    obtain ⟨part, hpart, hsegment⟩ := List.mem_map.mp hname
    obtain rfl : part = name := by simpa using hsegment
    exact hpath part hpart

theorem isComponent_lexical (relative : String) :
    ∀ part ∈ installation.lexical relative, IsComponent part := by
  intro part hpart
  rcases List.mem_append.mp hpart with hroot | hrelative
  · exact installation.isComponent part hroot
  · exact PurePosixPath.isComponent_of_mem_components hrelative

theorem physical_root {path physical : List String} {mode : Nat} {content : Bytes}
    (hrealpath : realpath installation.disk path = some physical)
    (hfile : installation.disk.find physical = some (.file mode content)) :
    Physical (seen installation.disk) [] := by
  refine ⟨?_, ?_⟩
  · intro before after hsplit hafter
    exact absurd (List.append_eq_nil_iff.mp hsplit.symm).2 hafter
  · cases path with
    | nil =>
        obtain rfl : [] = physical := by simpa [realpath] using hrealpath
        exact .inl (by simp [seen, hfile])
    | cons part rest => exact .inr (seen_of_resolve hrealpath).1

/-- The path of a file inside a package leads to it. -/
theorem place_relativeText {source : String} {physical : List String} {mode : Nat}
    {content : Bytes} (hplace : installation.place source [] = some physical)
    (hinside : installation.root <+: physical)
    (hfile : installation.disk.find physical = some (.file mode content)) :
    installation.place (installation.relativeText physical) [] = some physical := by
  rw [Installation.place, List.append_nil] at hplace
  have hroot := physical_root hplace hfile
  have hphysical := physical_of_resolve hroot hroot hplace
  have hparts := isComponent_of_realpath (isComponent_lexical source) hplace
  obtain ⟨rest, rfl⟩ := hinside
  have hlexical : installation.lexical (installation.relativeText (installation.root ++ rest)) =
      installation.root ++ rest := by
    rw [Installation.lexical, Installation.relativeText, List.drop_left,
      PurePosixPath.components_join fun part hpart => hparts part (List.mem_append_right _ hpart)]
  rw [Installation.place, hlexical, List.append_nil]
  exact resolve_physical hphysical

end Files

/-! ### The payload -/

section Payload

variable {dependency : Dependency} {sha256 : Bytes → String}

/-- The path and the digest of a row of the inventory. -/
def inventoryRow (row : Json) : String × String :=
  match row with
  | .object fields =>
      (((property fields "path").bind Json.string?).getD "",
        ((property fields "sha256").bind Json.string?).getD "")
  | _ => ("", "")

theorem payloadRow_eq_ok {row : Json} {index : Nat} {path digest : String}
    (hok : payloadRow dependency row index = .ok (path, digest)) :
    inventoryRow row = (path, digest) := by
  unfold payloadRow at hok
  split at hok
  case h_2 => simp at hok
  case h_1 fields =>
    split at hok
    case h_2 => simp at hok
    case h_1 found digestFound hpath hdigest =>
      simp only [bind_eq_ok, pure_eq_ok, Prod.mk.injEq] at hok
      obtain ⟨_, _, rfl, rfl⟩ := hok
      simp [inventoryRow, hpath, hdigest, Json.string?]

/-- What an entry of a verified payload says of its file. -/
structure Verified (sha256 : Bytes → String) (installation : Installation)
    (entry : PayloadEntry) : Prop where
  place : installation.place entry.path [] = some entry.physical
  hashed : ∃ content, installation.Holds entry.path [] content ∧ sha256 content = entry.sha256

theorem verifyEntry_eq_ok {row : Json} {index : Nat} {entry : PayloadEntry}
    (hok : verifyEntry sha256 dependency row index = .ok entry) :
    inventoryRow row = (entry.path, entry.sha256) ∧
      Verified sha256 dependency.installation entry := by
  simp only [verifyEntry, bind_eq_ok, require_eq_ok, pure_eq_ok, exists_unit] at hok
  obtain ⟨⟨path, expected⟩, hrow, physical, hphysical, bytes, hbytes, hdigest, rfl⟩ := hok
  obtain ⟨text, mode, content, htext, hplace, _, hfile⟩ := resolvePayload_file hphysical
  obtain rfl : path = text := by simpa using htext
  obtain ⟨_, hread⟩ := readFile_eq_ok hbytes
  refine ⟨?_, hplace, bytes, ⟨physical, _, hplace, hread⟩, rfl⟩
  rw [payloadRow_eq_ok hrow]
  simp only [hdigest]

theorem payloadPaths_eq_ok {found paths : List String} {entries : List PayloadEntry}
    (hok : payloadPaths dependency found entries = .ok paths) :
    paths = found ++ entries.map PayloadEntry.path := by
  induction entries generalizing found with
  | nil => simpa [payloadPaths, eq_comm] using hok
  | cons entry entries ih =>
      simp only [payloadPaths, bind_eq_ok] at hok
      obtain ⟨_, _, hrest⟩ := hok
      simp [ih hrest]

/-- The inventory of a distribution. -/
def inventoryRows (distribution : Json.Fields) : List Json :=
  ((property distribution "payload").bind Json.array?).getD []

/-- A verified payload is the inventory, row by row. -/
theorem verifyPayload_eq_ok {distribution : Json.Fields} {payload : List PayloadEntry}
    {paths : List String}
    (hok : verifyPayload sha256 dependency distribution = .ok (payload, paths)) :
    paths = payload.map PayloadEntry.path ∧
      payload.map (fun entry => (entry.path, entry.sha256)) =
        (inventoryRows distribution).map inventoryRow ∧
      ∀ entry ∈ payload, Verified sha256 dependency.installation entry := by
  simp only [verifyPayload, bind_eq_ok, demand_eq_ok, require_eq_ok, pure_eq_ok, Prod.mk.injEq,
    exists_unit] at hok
  obtain ⟨rows, hrows, _, entries, hentries, found, hfound, _, rfl, rfl⟩ := hok
  have hrelated := enumerate_eq_ok hentries
  refine ⟨by simpa using payloadPaths_eq_ok hfound, ?_, ?_⟩
  · rw [inventoryRows, hrows, Option.getD_some]
    apply map_eq_of_related hrelated
    rintro row entry ⟨index, hentry⟩
    exact (verifyEntry_eq_ok hentry).1.symm
  · intro entry hentry
    obtain ⟨row, _, index, hrow⟩ := exists_item_of_mem hrelated hentry
    exact (verifyEntry_eq_ok hrow).2

end Payload

/-! ### What acceptance reads -/

section Accepted

variable {parse : Bytes → Option Json} {sha256 : Bytes → String}

/-- The readings and checks of an accepted module. -/
structure Reading (parse : Bytes → Option Json) (sha256 : Bytes → String) (dependency : Dependency)
    (module : PackageModule) (distribution : Json.Fields) (registration : Registration) :
    Prop where
  manifest : ∃ mode bytes,
    dependency.installation.disk.find module.manifest = some (.file mode bytes) ∧
      parse bytes = some (.object distribution)
  payload : ∃ paths, verifyPayload sha256 dependency distribution = .ok (module.payload, paths)
  registrationPlace : dependency.installation.place registrationPath [] = some module.registration
  registrationListed : registrationPath ∈ module.payload.map PayloadEntry.path
  registrationRead : ∃ identity suffix, readRegistration parse dependency identity
    module.registration = .ok (registration, suffix)
  inventory : checkBindingInventory dependency registration
    (module.payload.map PayloadEntry.path) = .ok ()
  generated : checkGeneratedJvmSources dependency registration
    (module.payload.map PayloadEntry.path) = .ok module.jvmRegistrationSources
  sources : checkSourceDirs dependency registration
    (module.payload.map PayloadEntry.path) = .ok ()

theorem readDistribution_eq_ok {dependency : Dependency} {metadata distribution : Json.Fields}
    {path : List String} (hpath : distributionPath dependency metadata = .ok path)
    (hok : readDistribution parse dependency metadata = .ok distribution) :
    ∃ mode bytes, dependency.installation.disk.find path = some (.file mode bytes) ∧
      parse bytes = some (.object distribution) := by
  simp only [readDistribution, hpath, readJson, bind_eq_ok, demand_eq_ok, require_eq_ok,
    pure_eq_ok, exists_unit, Except.ok.injEq, exists_eq_left'] at hok
  obtain ⟨value, ⟨bytes, hbytes, hvalue⟩, fields, hfields, _, rfl⟩ := hok
  obtain ⟨mode, hfile⟩ := readFile_eq_ok hbytes
  rw [Json.object?_eq_some] at hfields
  exact ⟨mode, bytes, hfile, hfields ▸ hvalue⟩

theorem registrationFile_eq_ok {dependency : Dependency} {distribution : Json.Fields}
    {paths physical : List String}
    (hok : registrationFile dependency distribution paths = .ok physical) :
    registrationPath ∈ paths ∧
      dependency.installation.place registrationPath [] = some physical := by
  simp only [registrationFile, bind_eq_ok, require_eq_ok, exists_unit] at hok
  obtain ⟨text, htext, hregistration, hlisted, hphysical⟩ := hok
  obtain ⟨given, _, _, hgiven, hplace, _⟩ := resolvePayload_file hphysical
  have hsame := hgiven.symm.trans (canonicalRelative_eq_ok htext)
  obtain rfl : given = text := by simpa using hsame
  exact ⟨hregistration ▸ hlisted, hregistration ▸ hplace⟩

/-- **What an accepted module has read.** -/
theorem exists_reading (package : AcceptedPackage parse sha256) :
    ∃ distribution registration, Reading parse sha256 package.dependency package.module
      distribution registration := by
  obtain ⟨dependency, module, haccepted⟩ := package
  unfold validateModule at haccepted
  split at haccepted
  case h_1 => simp at haccepted
  case h_2 =>
    simp only [bind_eq_ok, pure_eq_ok, Option.some.injEq, exists_unit] at haccepted
    obtain ⟨metadata, _, authored, _, manifest, hmanifest, distribution, hdistribution, identity, _,
      _, ⟨payload, paths⟩, hpayload, registrationPhysical, hregistration,
      ⟨registration, suffix⟩, hread, _, hinventory, generated, hgenerated, hsources, cmake, _,
      jvmSourceDirs, _, rfl⟩ := haccepted
    obtain ⟨hlisted, hplace⟩ := registrationFile_eq_ok hregistration
    obtain ⟨rfl, _, _⟩ := verifyPayload_eq_ok hpayload
    exact ⟨distribution, registration, {
      manifest := readDistribution_eq_ok hmanifest hdistribution
      payload := ⟨_, hpayload⟩
      registrationPlace := hplace
      registrationListed := hlisted
      registrationRead := ⟨identity, suffix, hread⟩
      inventory := hinventory
      generated := hgenerated
      sources := hsources
    }⟩

/-- The registration in its file. -/
structure RegistrationFile (parse : Bytes → Option Json) (installation : Installation)
    (physical : List String) (registration : Registration) (fields : Json.Fields) : Prop where
  read : ∃ mode bytes, installation.disk.find physical = some (.file mode bytes) ∧
    parse bytes = some (.object fields)
  nativeSourceDirs : property fields "nativeSourceDirs" =
    some (.array registration.nativeSourceDirs)
  jvmSourceDirs : property fields "jvmSourceDirs" = some (.array registration.jvmSourceDirs)
  jvmRegistrationSources : stringItems (property fields "jvmRegistrationSources") =
    some registration.jvmRegistrationSources

theorem readRegistration_eq_ok {dependency : Dependency} {identity : DistributionIdentity}
    {physical : List String} {registration : Registration} {suffix : String}
    (hok : readRegistration parse dependency identity physical = .ok (registration, suffix)) :
    ∃ fields, RegistrationFile parse dependency.installation physical registration fields := by
  simp only [readRegistration, readJson, bind_eq_ok, demand_eq_ok, require_eq_ok, pure_eq_ok,
    exists_unit, Prod.mk.injEq] at hok
  obtain ⟨value, ⟨bytes, hbytes, hvalue⟩, fields, hfields, _, _, nativeSourceDirs, hnative,
    jvmSourceDirs, hjvm, installers, _, cmakeTarget, _, suffix, _, _, jvmRegistrationSources,
    hsources, bindingSources, _, bindingHeaders, _, rfl, _⟩ := hok
  obtain ⟨mode, hfile⟩ := readFile_eq_ok hbytes
  rw [Json.object?_eq_some] at hfields
  simp only [Option.bind_eq_some_iff, Json.array?_eq_some] at hnative hjvm
  obtain ⟨_, hnative, rfl⟩ := hnative
  obtain ⟨_, hjvm, rfl⟩ := hjvm
  exact ⟨fields, ⟨mode, bytes, hfile, hfields ▸ hvalue⟩, hnative, hjvm, hsources⟩

variable {package : AcceptedPackage parse sha256} {distribution fields : Json.Fields}
  {registration : Registration}

theorem selected_eq {field : String}
    (hfile : RegistrationFile parse package.installation package.module.registration registration
      fields) :
    package.selected field = (stringItems (property fields field)).getD [] := by
  obtain ⟨mode, bytes, hfind, hparse⟩ := hfile.read
  simp [AcceptedPackage.selected, readRegular_of_find hfind, hparse, Json.object?]

/-- The items of an array of strings are its texts. -/
theorem eq_map_of_stringItems {items : List Json} {texts : List String}
    (hitems : stringItems (some (.array items)) = some texts) : items = texts.map .string := by
  rw [stringItems] at hitems
  induction items generalizing texts with
  | nil =>
      obtain rfl : [] = texts := by simpa using hitems
      rfl
  | cons item items ih =>
      simp only [List.mapM_cons, Option.bind_eq_bind, Option.bind_eq_some_iff, Option.pure_def,
        Option.some.injEq, Json.string?_eq_some] at hitems
      obtain ⟨text, rfl, rest, hrest, rfl⟩ := hitems
      rw [List.map_cons, ← ih hrest]

/-- A selected source directory is one of the registration's. -/
theorem mem_of_selected {items : List Json} {field relative : String}
    (hfile : RegistrationFile parse package.installation package.module.registration registration
      fields)
    (hitems : property fields field = some (.array items))
    (hrelative : relative ∈ package.selected field) : .string relative ∈ items := by
  rw [selected_eq hfile, hitems] at hrelative
  cases htexts : stringItems (some (.array items)) with
  | none => simp [htexts] at hrelative
  | some texts =>
      rw [htexts, Option.getD_some] at hrelative
      rw [eq_map_of_stringItems htexts]
      exact List.mem_map_of_mem hrelative

/-! ### What is selected is payload -/

theorem Reading.verified
    (hreading : Reading parse sha256 package.dependency package.module distribution registration) :
    package.module.payload.map (fun entry => (entry.path, entry.sha256)) =
        (inventoryRows distribution).map inventoryRow ∧
      ∀ entry ∈ package.module.payload, Verified sha256 package.installation entry := by
  obtain ⟨paths, hpayload⟩ := hreading.payload
  exact (verifyPayload_eq_ok hpayload).2

theorem Reading.exists_registrationFile
    (hreading : Reading parse sha256 package.dependency package.module distribution registration) :
    ∃ fields, RegistrationFile parse package.installation package.module.registration registration
      fields := by
  obtain ⟨identity, suffix, hread⟩ := hreading.registrationRead
  exact readRegistration_eq_ok hread

/-- Every file under a selected source directory is a payload file. -/
theorem exists_entry_of_source
    (hreading : Reading parse sha256 package.dependency package.module distribution registration)
    {relative : String}
    (hrelative : relative ∈ package.selected "nativeSourceDirs" ++ package.selected "jvmSourceDirs")
    {file : List String × Bytes} (hfile : file ∈ package.installation.filesUnder relative) :
    ∃ entry ∈ package.module.payload, entry.path = below relative file.1 := by
  obtain ⟨fields, hregistration⟩ := hreading.exists_registrationFile
  have hchecked : ∀ inventory ∈ [("nativeSourceDirs", registration.nativeSourceDirs),
      ("jvmSourceDirs", registration.jvmSourceDirs)], .string relative ∈ inventory.2 →
      ∃ entry ∈ package.module.payload, entry.path = below relative file.1 := by
    intro inventory hinventory hitem
    have hsources := checkEach_eq_ok.mp hreading.sources inventory hinventory
    simp only [bind_eq_ok] at hsources
    obtain ⟨outputs, houtputs, _⟩ := hsources
    obtain ⟨_, _, index, hcovered⟩ := exists_output_of_mem (enumerate_eq_ok houtputs) hitem
    obtain ⟨text, htext, hlisted⟩ := listed_of_mem_filesUnder hcovered
    obtain rfl : relative = text := by simpa using htext
    have hpath := (hlisted file hfile).resolve_right (by simp)
    exact List.mem_map.mp hpath
  rcases List.mem_append.mp hrelative with hnative | hjvm
  · exact hchecked ("nativeSourceDirs", _) (by simp)
      (mem_of_selected hregistration hregistration.nativeSourceDirs hnative)
  · exact hchecked ("jvmSourceDirs", _) (by simp)
      (mem_of_selected hregistration hregistration.jvmSourceDirs hjvm)

/-- The JVM registration sources are payload paths, and lead to where the module says. -/
theorem Reading.registrationSources
    (hreading : Reading parse sha256 package.dependency package.module distribution registration) :
    (∀ source ∈ registration.jvmRegistrationSources,
        ∃ entry ∈ package.module.payload, entry.path = source) ∧
      ∀ physical ∈ package.module.jvmRegistrationSources,
        ∃ source ∈ registration.jvmRegistrationSources,
          package.installation.place source [] = some physical ∧
          package.installation.place (package.installation.relativeText physical) [] =
            some physical := by
  constructor
  · intro source hsource
    have hinventory := hreading.inventory
    simp only [checkBindingInventory, bind_eq_ok, checkEach_eq_ok] at hinventory
    obtain ⟨_, _, _, _, _, _, hlists⟩ := hinventory
    obtain ⟨outputs, houtputs, _⟩ :=
      hlists ("jvmRegistrationSources", registration.jvmRegistrationSources) (by simp)
    obtain ⟨_, _, index, hchecked⟩ := exists_output_of_mem (enumerate_eq_ok houtputs) hsource
    simp only [bind_eq_ok, require_eq_ok] at hchecked
    obtain ⟨text, htext, hlisted⟩ := hchecked
    obtain rfl : source = text := by simpa using canonicalRelative_eq_ok htext
    exact List.mem_map.mp hlisted
  · intro physical hphysical
    have hgenerated := hreading.generated
    simp only [checkGeneratedJvmSources, bind_eq_ok, pure_eq_ok] at hgenerated
    obtain ⟨files, hfiles, _, _, _, _, rfl⟩ := hgenerated
    obtain ⟨source, hsource, index, hresolved⟩ :=
      exists_item_of_mem (enumerate_eq_ok hfiles) hphysical
    obtain ⟨text, mode, content, htext, hplace, hinside, hfile⟩ := resolvePayload_file hresolved
    obtain rfl : source = text := by simpa using htext
    exact ⟨source, hsource, hplace, place_relativeText hplace hinside hfile⟩

/-- The generated JVM directories of a package have all been walked. -/
theorem walked_of_mem_generatedJvmDirs
    (hreading : Reading parse sha256 package.dependency package.module distribution registration)
    {relative : String} (hrelative : relative ∈ package.generatedJvmDirs) :
    ∃ label, requireHashedSourceTree package.installation (.string relative)
      (package.module.payload.map PayloadEntry.path) label
      (allowedJvmRegistrationEntries package.dependency package.module.jvmRegistrationSources) =
        .ok () := by
  obtain ⟨fields, hregistration⟩ := hreading.exists_registrationFile
  have hgenerated := hreading.generated
  simp only [checkGeneratedJvmSources, generatedJvmSourceDirs, bind_eq_ok, pure_eq_ok,
    checkEach_eq_ok, exists_unit] at hgenerated
  obtain ⟨files, hfiles, _, ⟨physicalDirs, hphysical, rfl⟩, hwalks, rfl⟩ := hgenerated
  refine ⟨_, hwalks relative ?_⟩
  have hdirs : physicalDirs.map id = package.module.jvmRegistrationSources.map fun physical =>
      package.installation.relativeText physical.dropLast := by
    apply map_eq_of_related (mapM_eq_ok.mp hphysical)
    intro physical directory hdirectory
    simp only [physicalSourceDir, bind_eq_ok, pure_eq_ok] at hdirectory
    obtain ⟨_, _, rfl⟩ := hdirectory
    rfl
  rw [List.map_id] at hdirs
  rw [mem_sortedSet, hdirs]
  rw [AcceptedPackage.generatedJvmDirs, selected_eq hregistration,
    hregistration.jvmRegistrationSources, Option.getD_some] at hrelative
  exact hrelative

/-- Every file in a generated JVM directory is a payload file, or what a JVM registration source
leads to. -/
theorem exists_entry_of_generated
    (hreading : Reading parse sha256 package.dependency package.module distribution registration)
    {relative : String} (hrelative : relative ∈ package.generatedJvmDirs)
    {file : List String × Bytes} (hfile : file ∈ package.installation.filesUnder relative) :
    ∃ entry ∈ package.module.payload,
      (below relative file.1 = entry.path ∨
        entry.path ∈ package.selected "jvmRegistrationSources" ∧
          package.installation.place relative file.1 =
            package.installation.place entry.path []) ∧
      package.installation.Holds entry.path [] file.2 := by
  obtain ⟨fields, hregistration⟩ := hreading.exists_registrationFile
  obtain ⟨label, hwalk⟩ := walked_of_mem_generatedJvmDirs hreading hrelative
  obtain ⟨text, htext, hlisted⟩ := listed_of_mem_filesUnder hwalk
  obtain rfl : relative = text := by simpa using htext
  have hholds := (holds_below hfile.1).mpr hfile.2
  rcases hlisted file hfile with hpath | hallowed
  · obtain ⟨entry, hentry, hpath⟩ := List.mem_map.mp hpath
    exact ⟨entry, hentry, .inl hpath.symm, hpath ▸ hholds⟩
  · obtain ⟨physical, hphysical, hrelation⟩ := List.mem_map.mp hallowed
    obtain ⟨hsources, hplaces⟩ := hreading.registrationSources
    obtain ⟨source, hsource, hplace, hsame⟩ := hplaces physical hphysical
    obtain ⟨entry, hentry, rfl⟩ := hsources source hsource
    have hbelow : package.installation.place (below relative file.1) [] =
        package.installation.place entry.path [] := by
      rw [← hrelation, hplace]
      exact hsame
    refine ⟨entry, hentry, .inr ⟨?_, ?_⟩, ?_⟩
    · rw [selected_eq hregistration, hregistration.jvmRegistrationSources]
      exact hsource
    · rw [← place_below hfile.1, hbelow]
    · rw [Installation.Holds, ← hbelow]
      exact hholds

/-! ### Two packages -/

theorem CollisionFree.symm {first second : FileTree} (hfree : CollisionFree sha256 first second) :
    CollisionFree sha256 second first :=
  fun left hleft right hright hsame => (hfree right hright left hleft hsame.symm).symm

variable {first second : AcceptedPackage parse sha256} {firstRegistration : Registration}
  {secondRegistration : Registration}

/-- Packages with one manifest have one distribution. -/
theorem distribution_unique {firstDistribution secondDistribution : Json.Fields}
    (hmanifest : first.manifest = second.manifest)
    (hfirst : Reading parse sha256 first.dependency first.module firstDistribution
      firstRegistration)
    (hsecond : Reading parse sha256 second.dependency second.module secondDistribution
      secondRegistration) : firstDistribution = secondDistribution := by
  obtain ⟨mode, bytes, hfile, hparse⟩ := hfirst.manifest
  obtain ⟨otherMode, otherBytes, hotherFile, hotherParse⟩ := hsecond.manifest
  have hbytes : bytes = otherBytes := by
    simpa [AcceptedPackage.manifest, AcceptedPackage.installation, readRegular_of_find hfile,
      readRegular_of_find hotherFile] using hmanifest
  rw [← hbytes, hparse] at hotherParse
  simpa using hotherParse

section OneDistribution

variable (hfirst : Reading parse sha256 first.dependency first.module distribution
    firstRegistration)
  (hsecond : Reading parse sha256 second.dependency second.module distribution
    secondRegistration)
  (hfree : CollisionFree sha256 first.installation.disk second.installation.disk)

include hfirst hsecond

theorem inventory_eq : first.module.payload.map (fun entry => (entry.path, entry.sha256)) =
    second.module.payload.map fun entry => (entry.path, entry.sha256) :=
  hfirst.verified.1.trans hsecond.verified.1.symm

include hfree

/-- What one package holds at a payload path, the other one holds too. -/
theorem holds_of_payload {entry : PayloadEntry} (hentry : entry ∈ first.module.payload)
    {content : Bytes} (hholds : first.installation.Holds entry.path [] content) :
    second.installation.Holds entry.path [] content := by
  have hrow : (entry.path, entry.sha256) ∈
      second.module.payload.map fun entry => (entry.path, entry.sha256) := by
    rw [← inventory_eq hfirst hsecond]
    exact List.mem_map_of_mem hentry
  obtain ⟨other, hother, hsame⟩ := List.mem_map.mp hrow
  obtain ⟨hpath, hdigest⟩ := Prod.mk.inj hsame
  obtain ⟨mine, hmine, hmyDigest⟩ := (hfirst.verified.2 entry hentry).hashed
  obtain ⟨theirs, htheirs, htheirDigest⟩ := (hsecond.verified.2 other hother).hashed
  obtain rfl := hmine.unique hholds
  have hequal : mine = theirs := by
    apply hfree mine hmine.mem_contents theirs htheirs.mem_contents
    rw [hmyDigest, htheirDigest, hdigest]
  rw [hequal, ← hpath]
  exact htheirs

theorem generatedJvmHashed : GeneratedJvmHashed first second := by
  intro relative hrelative file hfile
  obtain ⟨entry, hentry, hreached, hholds⟩ := exists_entry_of_generated hfirst hrelative hfile
  exact ⟨entry, hentry, hreached, hholds, holds_of_payload hfirst hsecond hfree hentry hholds⟩

/-- Files that one package selects, the other one has. -/
theorem filesUnder_subset {relative : String}
    (hrelative : relative ∈ first.selected "nativeSourceDirs" ++ first.selected "jvmSourceDirs") :
    first.installation.filesUnder relative ⊆ second.installation.filesUnder relative := by
  intro file hfile
  obtain ⟨entry, hentry, hpath⟩ := exists_entry_of_source hfirst hrelative hfile
  have hholds := (holds_below hfile.1).mpr hfile.2
  rw [← hpath] at hholds
  have hother := holds_of_payload hfirst hsecond hfree hentry hholds
  rw [hpath] at hother
  exact ⟨hfile.1, (holds_below hfile.1).mp hother⟩

theorem selected_same (field : String) : first.selected field = second.selected field := by
  obtain ⟨entry, hentry, hpath⟩ := List.mem_map.mp hfirst.registrationListed
  obtain ⟨fields, hregistration⟩ := hfirst.exists_registrationFile
  obtain ⟨mode, bytes, hfile, hparse⟩ := hregistration.read
  have hmine : first.installation.Holds entry.path [] bytes :=
    ⟨_, mode, hpath ▸ hfirst.registrationPlace, hfile⟩
  obtain ⟨physical, otherMode, hplace, hother⟩ := holds_of_payload hfirst hsecond hfree hentry hmine
  have hsame : second.module.registration = physical := by
    rw [hpath] at hplace
    exact Option.some.inj (hsecond.registrationPlace.symm.trans hplace)
  rw [AcceptedPackage.selected, AcceptedPackage.selected, readRegular_of_find hfile, hsame,
    readRegular_of_find hother]
  rfl

end OneDistribution

/-- **Two accepted packages with the same distribution manifest give a build the same inputs**, as
long as the digest tells the contents of their files apart. -/
theorem sameInputs_of_manifest (first second : AcceptedPackage parse sha256)
    (hmanifest : first.manifest = second.manifest)
    (hfree : CollisionFree sha256 first.installation.disk second.installation.disk) :
    SameInputs first second := by
  obtain ⟨distribution, _, hfirst⟩ := exists_reading first
  obtain ⟨_, _, hsecond⟩ := exists_reading second
  obtain rfl := distribution_unique hmanifest hfirst hsecond
  have hselection := selected_same hfirst hsecond hfree
  exact {
    inventory := inventory_eq hfirst hsecond
    payload := by
      intro entry hentry
      obtain ⟨content, hholds, _⟩ := (hfirst.verified.2 entry hentry).hashed
      exact ⟨content, hholds, holds_of_payload hfirst hsecond hfree hentry hholds⟩
    selection := hselection
    sources := by
      intro relative hrelative
      apply Set.Subset.antisymm
      · exact filesUnder_subset hfirst hsecond hfree hrelative
      · rw [hselection, hselection] at hrelative
        exact filesUnder_subset hsecond hfirst hfree.symm hrelative
    generatedJvm := ⟨generatedJvmHashed hfirst hsecond hfree,
      generatedJvmHashed hsecond hfirst hfree.symm⟩
  }

end Accepted

/-! ### An audio package, as it was published and with a link in it -/

section Sample

/-- Where the files of a module that its consumers read first are. -/
def placesOf (module : PackageModule) : List String × List String × List (List String) :=
  (module.manifest, module.registration, module.jvmRegistrationSources)

/-- A module that has places was accepted. -/
theorem exists_module_of_places {parse : Bytes → Option Json} {sha256 : Bytes → String}
    {dependency : Dependency} {places : List String × List String × List (List String)}
    (hplaces : (validateModule parse sha256 dependency).toOption.join.map placesOf = some places) :
    ∃ package : AcceptedPackage parse sha256, package.dependency = dependency ∧
      placesOf package.module = places := by
  obtain ⟨module, hmodule, hplaces⟩ := Option.map_eq_some_iff.mp hplaces
  cases hresult : validateModule parse sha256 dependency with
  | error error => simp [hresult, Except.toOption] at hmodule
  | ok value =>
      obtain rfl : value = some module := by
        simpa [hresult, Except.toOption, Option.join_eq_some_iff] using hmodule
      exact ⟨⟨dependency, module, hresult⟩, rfl, hplaces⟩

/-- The content of a regular file. -/
def Installation.content? (installation : Installation) (relative : String)
    (names : List String) : Option Bytes :=
  (installation.place relative names).bind fun physical =>
    (installation.disk.readRegular physical).map Prod.fst

theorem holds_iff_content? {installation : Installation} {relative : String}
    {names : List String} {content : Bytes} :
    installation.Holds relative names content ↔
      installation.content? relative names = some content := by
  simp only [Installation.Holds, Installation.content?, Option.bind_eq_some_iff,
    Option.map_eq_some_iff]
  constructor
  · rintro ⟨physical, mode, hplace, hfile⟩
    exact ⟨physical, hplace, (content, mode), readRegular_of_find hfile, rfl⟩
  · rintro ⟨physical, hplace, ⟨found, mode⟩, hread, rfl⟩
    unfold FileTree.readRegular at hread
    split at hread
    case h_1 foundMode foundContent hfind =>
      obtain ⟨rfl, rfl⟩ : foundContent = found ∧ foundMode = mode := by simpa using hread
      exact ⟨physical, foundMode, hplace, hfind⟩
    case h_2 => simp at hread

def audioPackageJson : Json.Fields := [
  ("name", .string "@fixture/audio"),
  ("supernoteNativeModule", .object [
    ("kind", .string moduleKind),
    ("manifest", .string ".supernote-generated/package-manifest.json"),
    ("protocol", .string moduleProtocol),
    ("schemaVersion", .string contractSchema)]),
  ("version", .string "1.2.3")]

def audioAuthored : Json := .object [
  ("android_namespace", .string "com.fixture.audio"),
  ("feature_id", .string "supernote:feature:28f5fcab2fb70325"),
  ("kind", .string "supernote_module_feature"),
  ("npm_name", .string "@fixture/audio"),
  ("package_version", .string "1.2.3"),
  ("public_name", .string "Audio"),
  ("schema_version", .string "1.0")]

def audioRegistration : Json := .object [
  ("androidNamespace", .string "com.fixture.audio"),
  ("bindingHeaders", .array [.string ".supernote-generated/android/internal.hpp",
    .string nativeRegistrationHeaderPath]),
  ("bindingSources", .array [.string ".supernote-generated/android/feature.cpp",
    .string ".supernote-generated/android/internal.cpp", .string nativeRegistrationSourcePath]),
  ("cmake", .string cmakePath),
  ("cmakeTarget", .string "supernote_feature_28f5fcab2fb70325"),
  ("conversion", .string conversionPath),
  ("featureId", .string "supernote:feature:28f5fcab2fb70325"),
  ("installers", .object [
    ("jvm", .null),
    ("native", .object [
      ("source", .string nativeRegistrationSourcePath),
      ("symbol", .string "supernote_package_install_native_28f5fcab2fb70325")])]),
  ("jvmRegistrationSources", .array [.string jvmRegistrationPath]),
  ("jvmSourceDirs", .array []),
  ("kind", .string "supernote_module_registration"),
  ("nativeAbi", .string nativeAbi),
  ("nativeSourceDirs", .array [.string "native"]),
  ("packageName", .string "@fixture/audio"),
  ("protocol", .string moduleProtocol),
  ("publicName", .string "Audio"),
  ("schemaVersion", .string contractSchema),
  ("semantic", .string semanticPath)]

def jsonBytes (value : Json) : Bytes :=
  Json.dumpsLine (fun _ => "") value

/-- The contents below are told apart by how they start. -/
def startsAs (content other : Bytes) : Bool :=
  content.take 60 = other.take 60

def volumeSource : Bytes := utf8 "int volume();\n"
def extraCMake : Bytes := utf8 "add_definitions(-DEXTRA)\n"

/-- Contents and their digests. -/
def digests : List (Bytes × String) := [
  ([], "e3b0c44298fc1c149afbf4c8996fb92427ae41e4649b934ca495991b7852b855"),
  (volumeSource, "dfaf5e5bc30e49478e9a402c8b54b0718839e6734817e3f6f4786ed93a6736a3"),
  (extraCMake, "3f75f05226c82354b72fec8e07c85bd5dc6f74db34f4a9beecef9c0f8dd897ed"),
  (jsonBytes (.object audioPackageJson),
    "bc762af7e0eae6963ffe64feb6229df5c16b2000feb2cfa83a047455e618361d"),
  (jsonBytes audioAuthored, "17c0066cfc95e919d96e5bb3b1a02b5ed023bd3482df253b5fa975888fc12589"),
  (jsonBytes audioRegistration,
    "ba8f5bf9eb4cf5f00911cfcca40a21ee46d2d734ea63d9e725121fb2423f68dc")]

def digestOf (content : Bytes) : String :=
  ((digests.find? fun row => startsAs row.1 content).map Prod.snd).getD
    "d20248018da6f0c6f3adad6da5fd1512b07036f7d19df3493bed9cabda87dd70"

/-- The payload in the order of its paths. -/
def audioPayload : List (String × Bytes) := [
  (conversionPath, []),
  (cmakePath, []),
  (".supernote-generated/android/feature.cpp", []),
  (".supernote-generated/android/internal.cpp", []),
  (".supernote-generated/android/internal.hpp", []),
  (jvmRegistrationPath, []),
  (nativeRegistrationSourcePath, []),
  (nativeRegistrationHeaderPath, []),
  (registrationPath, jsonBytes audioRegistration),
  (semanticPath, []),
  (".supernote-generated/index.d.ts", []),
  (".supernote-generated/index.js", []),
  (".supernote-module.json", jsonBytes audioAuthored),
  ("native/audio.cpp", volumeSource),
  ("package.json", jsonBytes (.object audioPackageJson))]

def audioManifest : Json := .object [
  ("androidNamespace", .string "com.fixture.audio"),
  ("featureId", .string "supernote:feature:28f5fcab2fb70325"),
  ("kind", .string moduleKind),
  ("packageName", .string "@fixture/audio"),
  ("packageVersion", .string "1.2.3"),
  ("payload", .array (audioPayload.map fun (path, content) =>
    .object [("path", .string path), ("sha256", .string (digestOf content))])),
  ("protocol", .string moduleProtocol),
  ("publicName", .string "Audio"),
  ("registration", .string registrationPath),
  ("schemaVersion", .string contractSchema)]

/-- The values that these packages are read as. -/
def parseAudio (bytes : Bytes) : Option Json :=
  [.object audioPackageJson, audioAuthored, audioRegistration, audioManifest].find? fun value =>
    startsAs (jsonBytes value) bytes

/-- The package on a disk, with its directory of JVM registration sources and more at its root. -/
def audioDisk (jvm more : List (String × FileTree)) : FileTree :=
  let file (content : Bytes) : FileTree := .file 0o644 content
  let empty : FileTree := file []
  .directory 0o755 [("audio", .directory 0o755 (more ++ [
    (".supernote-generated", .directory 0o755 [
      ("android", .directory 0o755 [
        ("CMakeLists.txt", empty), ("conversion.json", empty), ("feature.cpp", empty),
        ("internal.cpp", empty), ("internal.hpp", empty),
        ("jvm", .directory 0o755 jvm),
        ("package_registration.cpp", empty), ("package_registration.hpp", empty),
        ("registration.json", file (jsonBytes audioRegistration)), ("semantic.json", empty)]),
      ("index.d.ts", empty), ("index.js", empty),
      ("package-manifest.json", file (jsonBytes audioManifest))]),
    (".supernote-module.json", file (jsonBytes audioAuthored)),
    ("native", .directory 0o755 [("audio.cpp", file volumeSource)]),
    ("package.json", file (jsonBytes (.object audioPackageJson)))]))]

def audioDependency (disk : FileTree) : Dependency where
  installation := ⟨disk, ["audio"], by simp [IsComponent]⟩
  name := "@fixture/audio"
  packageJson := audioPackageJson

/-- As it was published. -/
def publishedDisk : FileTree :=
  audioDisk [("JvmRegistration.java", .file 0o644 [])] []

/-- A link leads to the JVM registration source, and there is a build file at the root. -/
def linkedDisk : FileTree :=
  audioDisk
    [("Generated.java", .file 0o644 []), ("JvmRegistration.java", .symlink 0o777 "Generated.java")]
    [("CMakeLists.txt", .file 0o644 extraCMake)]

theorem publishedDisk_accepted :
    (validateModule parseAudio digestOf (audioDependency publishedDisk)).toOption.join.map
      placesOf = some (["audio", ".supernote-generated", "package-manifest.json"],
        ["audio", ".supernote-generated", "android", "registration.json"],
        [["audio", ".supernote-generated", "android", "jvm", "JvmRegistration.java"]]) := by
  decide +kernel

theorem linkedDisk_accepted :
    (validateModule parseAudio digestOf (audioDependency linkedDisk)).toOption.join.map placesOf =
      some (["audio", ".supernote-generated", "package-manifest.json"],
        ["audio", ".supernote-generated", "android", "registration.json"],
        [["audio", ".supernote-generated", "android", "jvm", "Generated.java"]]) := by
  decide +kernel

/-- The contents on both disks. -/
def audioContents : List Bytes :=
  [jsonBytes audioManifest, [], volumeSource, extraCMake, jsonBytes (.object audioPackageJson),
    jsonBytes audioAuthored, jsonBytes audioRegistration]

theorem contents_published : contents publishedDisk = [[], [], [], [], [], [], [], [],
    jsonBytes audioRegistration, [], [], [], jsonBytes audioManifest, jsonBytes audioAuthored,
    volumeSource, jsonBytes (.object audioPackageJson)] :=
  rfl

theorem contents_linked : contents linkedDisk = extraCMake :: contents publishedDisk :=
  rfl

theorem contents_subset : contents linkedDisk ⊆ audioContents := by
  simp only [contents_linked, contents_published, audioContents, List.cons_subset, List.mem_cons,
    true_or, or_true, List.nil_subset, and_self]

theorem digests_audioContents : audioContents.map digestOf = [
    "d20248018da6f0c6f3adad6da5fd1512b07036f7d19df3493bed9cabda87dd70",
    "e3b0c44298fc1c149afbf4c8996fb92427ae41e4649b934ca495991b7852b855",
    "dfaf5e5bc30e49478e9a402c8b54b0718839e6734817e3f6f4786ed93a6736a3",
    "3f75f05226c82354b72fec8e07c85bd5dc6f74db34f4a9beecef9c0f8dd897ed",
    "bc762af7e0eae6963ffe64feb6229df5c16b2000feb2cfa83a047455e618361d",
    "17c0066cfc95e919d96e5bb3b1a02b5ed023bd3482df253b5fa975888fc12589",
    "ba8f5bf9eb4cf5f00911cfcca40a21ee46d2d734ea63d9e725121fb2423f68dc"] := by
  decide +kernel

theorem collisionFree_audio :
    CollisionFree digestOf publishedDisk linkedDisk := by
  intro left hleft right hright hsame
  have hnodup : (audioContents.map digestOf).Nodup := by
    rw [digests_audioContents]
    decide
  have hlinked : left ∈ contents linkedDisk := List.mem_cons_of_mem _ hleft
  exact List.inj_on_of_nodup_map hnodup (contents_subset hlinked) (contents_subset hright) hsame

/-- The package is the published one, as accepted. -/
structure IsPublished (package : AcceptedPackage parseAudio digestOf) : Prop where
  isDependency : package.dependency = audioDependency publishedDisk
  places : placesOf package.module =
    (["audio", ".supernote-generated", "package-manifest.json"],
      ["audio", ".supernote-generated", "android", "registration.json"],
      [["audio", ".supernote-generated", "android", "jvm", "JvmRegistration.java"]])

/-- The package is the one with the link, as accepted. -/
structure IsLinked (package : AcceptedPackage parseAudio digestOf) : Prop where
  isDependency : package.dependency = audioDependency linkedDisk
  places : placesOf package.module =
    (["audio", ".supernote-generated", "package-manifest.json"],
      ["audio", ".supernote-generated", "android", "registration.json"],
      [["audio", ".supernote-generated", "android", "jvm", "Generated.java"]])

theorem exists_published : ∃ package, IsPublished package := by
  obtain ⟨package, hdependency, hplaces⟩ := exists_module_of_places publishedDisk_accepted
  exact ⟨package, hdependency, hplaces⟩

theorem exists_linked : ∃ package, IsLinked package := by
  obtain ⟨package, hdependency, hplaces⟩ := exists_module_of_places linkedDisk_accepted
  exact ⟨package, hdependency, hplaces⟩

variable {first second : AcceptedPackage parseAudio digestOf}

theorem manifest_same (hfirst : IsPublished first) (hsecond : IsLinked second) :
    first.manifest = second.manifest := by
  have hpublished : publishedDisk.readRegular
      ["audio", ".supernote-generated", "package-manifest.json"] =
        some (jsonBytes audioManifest, 0o644) := rfl
  have hlinked : linkedDisk.readRegular
      ["audio", ".supernote-generated", "package-manifest.json"] =
        some (jsonBytes audioManifest, 0o644) := rfl
  have hfirstPlace : first.module.manifest = _ := congrArg Prod.fst hfirst.places
  have hsecondPlace : second.module.manifest = _ := congrArg Prod.fst hsecond.places
  rw [AcceptedPackage.manifest, AcceptedPackage.manifest, AcceptedPackage.installation,
    AcceptedPackage.installation, hfirst.isDependency, hsecond.isDependency, hfirstPlace,
    hsecondPlace]
  change (publishedDisk.readRegular _).map _ = (linkedDisk.readRegular _).map _
  rw [hpublished, hlinked]

/-- The published package and the one with the link give a build the same inputs. -/
theorem sameInputs_audio : ∃ first second, IsPublished first ∧ IsLinked second ∧
    SameInputs first second := by
  obtain ⟨first, hfirst⟩ := exists_published
  obtain ⟨second, hsecond⟩ := exists_linked
  have hfree : CollisionFree digestOf first.installation.disk second.installation.disk := by
    rw [AcceptedPackage.installation, AcceptedPackage.installation, hfirst.isDependency,
      hsecond.isDependency]
    exact collisionFree_audio
  exact ⟨first, second, hfirst, hsecond,
    sameInputs_of_manifest first second (manifest_same hfirst hsecond) hfree⟩

theorem generatedJvmDirs_linked (hsecond : IsLinked second) :
    ".supernote-generated/android/jvm" ∈ second.generatedJvmDirs := by
  have hplaces : second.module.jvmRegistrationSources = _ :=
    congrArg (fun places => places.2.2) hsecond.places
  rw [AcceptedPackage.generatedJvmDirs, AcceptedPackage.installation, hsecond.isDependency, hplaces]
  apply List.mem_append_right
  decide

/-- **One manifest, and a build may still see different files**: the package with the link has
another file in its generated JVM directory, and a build file at its root. -/
theorem packages_differ : ∃ first second : AcceptedPackage parseAudio digestOf,
    first.manifest = second.manifest ∧
      CollisionFree digestOf first.installation.disk second.installation.disk ∧
      (∃ relative ∈ second.generatedJvmDirs,
        first.installation.filesUnder relative ≠ second.installation.filesUnder relative) ∧
      (∀ content, ¬ first.installation.Holds "CMakeLists.txt" [] content) ∧
      second.installation.Holds "CMakeLists.txt" [] extraCMake := by
  obtain ⟨first, hfirst⟩ := exists_published
  obtain ⟨second, hsecond⟩ := exists_linked
  have hfirstTree : first.installation = (audioDependency publishedDisk).installation := by
    rw [AcceptedPackage.installation, hfirst.isDependency]
  have hsecondTree : second.installation = (audioDependency linkedDisk).installation := by
    rw [AcceptedPackage.installation, hsecond.isDependency]
  refine ⟨first, second, manifest_same hfirst hsecond, ?_,
    ⟨_, generatedJvmDirs_linked hsecond, ?_⟩, ?_, ?_⟩
  · rw [hfirstTree, hsecondTree]
    exact collisionFree_audio
  · rw [hfirstTree, hsecondTree]
    intro hsame
    have hlinked : (["Generated.java"], []) ∈ (audioDependency linkedDisk).installation.filesUnder
        ".supernote-generated/android/jvm" :=
      ⟨by simp [IsName, IsComponent], holds_iff_content?.mpr (by decide)⟩
    rw [← hsame] at hlinked
    have hmissing : (audioDependency publishedDisk).installation.content?
        ".supernote-generated/android/jvm" ["Generated.java"] = none := by decide
    have hcontent := holds_iff_content?.mp hlinked.2
    rw [hmissing] at hcontent
    simp at hcontent
  · intro content hholds
    rw [hfirstTree, holds_iff_content?] at hholds
    have hmissing : (audioDependency publishedDisk).installation.content? "CMakeLists.txt" [] =
        none := by decide
    rw [hmissing] at hholds
    simp at hholds
  · rw [hsecondTree, holds_iff_content?]
    decide

end Sample

end SupernoteModule.Npm
