import TraceLog.Settings.Layout

/-!
# TraceLog.Settings.Cache

The tiers of the cache and where they are stored.

Every setting has a default, so a document may leave out any of them.  `Cache`
leaves open how the kind of a layout is given: settings name it as a type, the
trace by its text.
-/

namespace TraceLog

/-- The tiers of the cache, the kinds of their layouts given as a `κ`. -/
structure Cache (κ : Type) where
  tokensPerBlock : UInt64
  useCpu : Bool
  useSsd : Bool
  useRemote : Bool
  gpuLayout : κ
  cpuLayout : κ
  ssdLayout : κ
  remoteLayout : κ
  directStorage : Bool
  remoteSizeMode : String
  cpuBlocks : UInt64
  ssdBlocks : UInt64
  remoteBlocks : Option UInt64
  remoteFileSize : Option UInt64
  remoteFileCount : Option UInt64
  remoteFileStem : Option String
  ssdDirectories : Option (List String)
  ssdQueueEntries : UInt32
  ssdQueueFlags : UInt32
  remotePaths : Option (List String)
  remoteCustom : Option (Entries Json)
  evictRatio : Binary64

namespace Cache

variable {κ τ : Type}

/-- The settings with the kinds given in another way. -/
def map (f : κ → τ) (c : Cache κ) : Cache τ :=
  { c with
    gpuLayout := f c.gpuLayout
    cpuLayout := f c.cpuLayout
    ssdLayout := f c.ssdLayout
    remoteLayout := f c.remoteLayout }

/-- The settings as a record of this name. -/
def form (name : String) (kind : Form κ) : Form (Cache κ) :=
  (RecordForm.form name <|
    .cons "tokens_per_block" .size <|
    .cons "enable_cpu" .bool <|
    .cons "enable_ssd" .bool <|
    .cons "enable_remote" .bool <|
    .cons "gpu_kv_layout_type" kind <|
    .cons "cpu_kv_layout_type" kind <|
    .cons "ssd_kv_layout_type" kind <|
    .cons "remote_kv_layout_type" kind <|
    .cons "use_gds" .bool <|
    .cons "remote_cache_size_mode" .text <|
    .cons "num_cpu_blocks" .size <|
    .cons "num_ssd_blocks" .size <|
    .cons "num_remote_blocks" (.optional .size) <|
    .cons "remote_file_size" (.optional .wide) <|
    .cons "remote_file_num" (.optional .size) <|
    .cons "remote_file_prefix" (.optional .text) <|
    .cons "ssd_cache_dir" (.optional (.list .text)) <|
    .cons "ssd_cache_iouring_entries" .half <|
    .cons "ssd_cache_iouring_flags" .half <|
    .cons "remote_cache_path" (.optional (.list .text)) <|
    .cons "remote_config_custom" (.optional .documents) <|
    .cons "evict_ratio" .float .nil).via
    (fun c => (c.tokensPerBlock, c.useCpu, c.useSsd, c.useRemote, c.gpuLayout, c.cpuLayout,
      c.ssdLayout, c.remoteLayout, c.directStorage, c.remoteSizeMode, c.cpuBlocks, c.ssdBlocks,
      c.remoteBlocks, c.remoteFileSize, c.remoteFileCount, c.remoteFileStem, c.ssdDirectories,
      c.ssdQueueEntries, c.ssdQueueFlags, c.remotePaths, c.remoteCustom, c.evictRatio, ()))
    (fun (tokensPerBlock, useCpu, useSsd, useRemote, gpuLayout, cpuLayout, ssdLayout,
        remoteLayout, directStorage, remoteSizeMode, cpuBlocks, ssdBlocks, remoteBlocks,
        remoteFileSize, remoteFileCount, remoteFileStem, ssdDirectories, ssdQueueEntries,
        ssdQueueFlags, remotePaths, remoteCustom, evictRatio, _) =>
      ⟨tokensPerBlock, useCpu, useSsd, useRemote, gpuLayout, cpuLayout, ssdLayout,
        remoteLayout, directStorage, remoteSizeMode, cpuBlocks, ssdBlocks, remoteBlocks,
        remoteFileSize, remoteFileCount, remoteFileStem, ssdDirectories, ssdQueueEntries,
        ssdQueueFlags, remotePaths, remoteCustom, evictRatio⟩)
    (fun _ => rfl) (fun _ => rfl)

end Cache

/-- The cache in the settings of the host. -/
abbrev CacheSettings := Cache LayoutKind

/-- Blocks in main memory and nowhere else. -/
def CacheSettings.standard : CacheSettings where
  tokensPerBlock := 16
  useCpu := true
  useSsd := false
  useRemote := false
  gpuLayout := .layerWise
  cpuLayout := .blockWise
  ssdLayout := .blockWise
  remoteLayout := .blockWise
  directStorage := false
  remoteSizeMode := "file_size"
  cpuBlocks := 1000000
  ssdBlocks := 10000000
  remoteBlocks := none
  remoteFileSize := none
  remoteFileCount := none
  remoteFileStem := none
  ssdDirectories := none
  ssdQueueEntries := 0
  ssdQueueFlags := 0
  remotePaths := none
  remoteCustom := none
  evictRatio := ⟨0⟩

instance : Inhabited CacheSettings := ⟨CacheSettings.standard⟩

/-- The form of the settings; what a document leaves out is standard. -/
def CacheSettings.form : Form CacheSettings :=
  (Cache.form "CacheConfig" LayoutKind.form).orElse CacheSettings.standard

/-- The cache in the trace. -/
abbrev CacheSnapshot := Cache String

/-- The form of the snapshot. -/
def CacheSnapshot.form : Form CacheSnapshot := Cache.form "CacheConfigSnapshot" .text

/-- The settings as the trace records them. -/
def CacheSettings.snapshot (c : CacheSettings) : CacheSnapshot := c.map LayoutKind.traceName

end TraceLog
