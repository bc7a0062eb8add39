/-
The table of the section types that are known without configuration.
-/
import UnitCheck.Schema.Table

namespace UnitCheck.Table

/-- Directives on the environment in which processes run. -/
def execution : List String :=
  ["WorkingDirectory", "RootDirectory", "RootImage", "RootImageOptions", "RootEphemeral",
    "RootHash", "RootHashSignature", "RootVerity", "RootImagePolicy", "MountImagePolicy",
    "ExtensionImagePolicy", "MountAPIVFS", "ProtectProc", "ProcSubset", "BindPaths",
    "BindReadOnlyPaths", "MountImages", "ExtensionImages", "ExtensionDirectories", "User",
    "Group", "DynamicUser", "SupplementaryGroups", "SetLoginEnvironment", "PAMName",
    "CapabilityBoundingSet", "AmbientCapabilities", "NoNewPrivileges", "SecureBits",
    "SELinuxContext", "AppArmorProfile", "SmackProcessLabel", "LimitCPU", "LimitFSIZE",
    "LimitDATA", "LimitSTACK", "LimitCORE", "LimitRSS", "LimitNOFILE", "LimitAS", "LimitNPROC",
    "LimitMEMLOCK", "LimitLOCKS", "LimitSIGPENDING", "LimitMSGQUEUE", "LimitNICE", "LimitRTPRIO",
    "LimitRTTIME", "UMask", "CoredumpFilter", "KeyringMode", "OOMScoreAdjust", "TimerSlackNSec",
    "Personality", "IgnoreSIGPIPE", "Nice", "CPUSchedulingPolicy", "CPUSchedulingPriority",
    "CPUSchedulingResetOnFork", "CPUAffinity", "NUMAPolicy", "NUMAMask", "IOSchedulingClass",
    "IOSchedulingPriority", "ProtectSystem", "ProtectHome", "RuntimeDirectory", "StateDirectory",
    "CacheDirectory", "LogsDirectory", "ConfigurationDirectory", "RuntimeDirectoryMode",
    "StateDirectoryMode", "CacheDirectoryMode", "LogsDirectoryMode", "ConfigurationDirectoryMode",
    "RuntimeDirectoryPreserve", "TimeoutCleanSec", "ReadWritePaths", "ReadOnlyPaths",
    "InaccessiblePaths", "ExecPaths", "NoExecPaths", "TemporaryFileSystem", "PrivateTmp",
    "PrivateDevices", "PrivateNetwork", "NetworkNamespacePath", "PrivateIPC", "IPCNamespacePath",
    "MemoryKSM", "PrivateUsers", "ProtectHostname", "ProtectClock", "ProtectKernelTunables",
    "ProtectKernelModules", "ProtectKernelLogs", "ProtectControlGroups",
    "RestrictAddressFamilies", "RestrictFileSystems", "RestrictNamespaces", "LockPersonality",
    "MemoryDenyWriteExecute", "RestrictRealtime", "RestrictSUIDSGID", "RemoveIPC",
    "PrivateMounts", "MountFlags", "SystemCallFilter", "SystemCallErrorNumber",
    "SystemCallArchitectures", "SystemCallLog", "Environment", "EnvironmentFile",
    "PassEnvironment", "UnsetEnvironment", "StandardInput", "StandardOutput", "StandardError",
    "StandardInputText", "StandardInputData", "LogLevelMax", "LogExtraFields",
    "LogRateLimitIntervalSec", "LogRateLimitBurst", "LogFilterPatterns", "LogNamespace",
    "SyslogIdentifier", "SyslogFacility", "SyslogLevel", "SyslogLevelPrefix", "TTYPath",
    "TTYReset", "TTYVHangup", "TTYRows", "TTYColumns", "TTYVTDisallocate", "LoadCredential",
    "LoadCredentialEncrypted", "ImportCredential", "SetCredential", "SetCredentialEncrypted",
    "UtmpIdentifier", "UtmpMode"]

/-- Directives on how processes are stopped. -/
def killing : List String :=
  ["KillMode", "KillSignal", "RestartKillSignal", "SendSIGHUP", "SendSIGKILL", "FinalKillSignal",
    "WatchdogSignal"]

/-- Directives on the resources that processes may use. -/
def resourceControl : List String :=
  ["CPUAccounting", "CPUWeight", "StartupCPUWeight", "CPUQuota", "CPUQuotaPeriodSec",
    "AllowedCPUs", "StartupAllowedCPUs", "AllowedMemoryNodes", "StartupAllowedMemoryNodes",
    "MemoryAccounting", "MemoryMin", "MemoryLow", "StartupMemoryLow", "DefaultStartupMemoryLow",
    "MemoryHigh", "StartupMemoryHigh", "MemoryMax", "StartupMemoryMax", "MemorySwapMax",
    "StartupMemorySwapMax", "MemoryZSwapMax", "StartupMemoryZSwapMax", "MemoryZSwapWriteback",
    "TasksAccounting", "TasksMax", "IOAccounting", "IOWeight", "StartupIOWeight",
    "IODeviceWeight", "IOReadBandwidthMax", "IOWriteBandwidthMax", "IOReadIOPSMax",
    "IOWriteIOPSMax", "IODeviceLatencyTargetSec", "IPAccounting", "IPAddressAllow",
    "IPAddressDeny", "SocketBindAllow", "SocketBindDeny", "RestrictNetworkInterfaces", "NFTSet",
    "IPIngressFilterPath", "IPEgressFilterPath", "BPFProgram", "DeviceAllow", "DevicePolicy",
    "Slice", "Delegate", "DelegateSubgroup", "DisableControllers", "ManagedOOMSwap",
    "ManagedOOMMemoryPressure", "ManagedOOMMemoryPressureLimit", "ManagedOOMPreference",
    "MemoryPressureWatch", "MemoryPressureThresholdSec", "CoredumpReceive", "CPUShares",
    "StartupCPUShares", "MemoryLimit", "BlockIOAccounting", "BlockIOWeight",
    "StartupBlockIOWeight", "BlockIODeviceWeight", "BlockIOReadBandwidth",
    "BlockIOWriteBandwidth"]

/-- Directives of every unit. -/
def unitDirectives : List String :=
  ["Description", "Documentation", "Wants", "Requires", "Requisite", "BindsTo", "PartOf",
    "Upholds", "Conflicts", "Before", "After", "OnFailure", "OnSuccess", "PropagatesReloadTo",
    "ReloadPropagatedFrom", "PropagatesStopTo", "StopPropagatedFrom", "JoinsNamespaceOf",
    "RequiresMountsFor", "WantsMountsFor", "OnFailureJobMode", "IgnoreOnIsolate",
    "StopWhenUnneeded", "RefuseManualStart", "RefuseManualStop", "AllowIsolate",
    "DefaultDependencies", "SurviveFinalKillSignal", "CollectMode", "FailureAction",
    "SuccessAction", "FailureActionExitStatus", "SuccessActionExitStatus", "JobTimeoutSec",
    "JobRunningTimeoutSec", "JobTimeoutAction", "JobTimeoutRebootArgument",
    "StartLimitIntervalSec", "StartLimitInterval", "StartLimitBurst", "StartLimitAction",
    "RebootArgument", "SourcePath", "ConditionArchitecture", "ConditionFirmware",
    "ConditionVirtualization", "ConditionHost", "ConditionKernelCommandLine",
    "ConditionKernelVersion", "ConditionCredential", "ConditionEnvironment", "ConditionSecurity",
    "ConditionCapability", "ConditionACPower", "ConditionNeedsUpdate", "ConditionFirstBoot",
    "ConditionPathExists", "ConditionPathExistsGlob", "ConditionPathIsDirectory",
    "ConditionPathIsSymbolicLink", "ConditionPathIsMountPoint", "ConditionPathIsReadWrite",
    "ConditionPathIsEncrypted", "ConditionDirectoryNotEmpty", "ConditionFileNotEmpty",
    "ConditionFileIsExecutable", "ConditionUser", "ConditionGroup",
    "ConditionControlGroupController", "ConditionMemory", "ConditionCPUs", "ConditionCPUFeature",
    "ConditionOSRelease", "ConditionMemoryPressure", "ConditionCPUPressure",
    "ConditionIOPressure", "AssertArchitecture", "AssertFirmware", "AssertVirtualization",
    "AssertHost", "AssertKernelCommandLine", "AssertKernelVersion", "AssertCredential",
    "AssertEnvironment", "AssertSecurity", "AssertCapability", "AssertACPower",
    "AssertNeedsUpdate", "AssertFirstBoot", "AssertPathExists", "AssertPathExistsGlob",
    "AssertPathIsDirectory", "AssertPathIsSymbolicLink", "AssertPathIsMountPoint",
    "AssertPathIsReadWrite", "AssertPathIsEncrypted", "AssertDirectoryNotEmpty",
    "AssertFileNotEmpty", "AssertFileIsExecutable", "AssertUser", "AssertGroup",
    "AssertControlGroupController", "AssertMemory", "AssertCPUs", "AssertCPUFeature",
    "AssertOSRelease", "AssertMemoryPressure", "AssertCPUPressure", "AssertIOPressure"]

/-- Directives on enabling a unit. -/
def installDirectives : List String :=
  ["Alias", "WantedBy", "RequiredBy", "UpheldBy", "Also", "DefaultInstance"]

/-- Directives of services. -/
def serviceDirectives : List String :=
  ["Type", "ExitType", "RemainAfterExit", "GuessMainPID", "PIDFile", "BusName", "ExecStart",
    "ExecStartPre", "ExecStartPost", "ExecCondition", "ExecReload", "ExecStop", "ExecStopPost",
    "RestartSec", "RestartSteps", "RestartMaxDelaySec", "TimeoutStartSec", "TimeoutStopSec",
    "TimeoutAbortSec", "TimeoutSec", "TimeoutStartFailureMode", "TimeoutStopFailureMode",
    "RuntimeMaxSec", "RuntimeRandomizedExtraSec", "WatchdogSec", "Restart", "RestartMode",
    "SuccessExitStatus", "RestartPreventExitStatus", "RestartForceExitStatus",
    "RootDirectoryStartOnly", "NonBlocking", "NotifyAccess", "Sockets", "FileDescriptorStoreMax",
    "FileDescriptorStorePreserve", "USBFunctionDescriptors", "USBFunctionStrings", "OOMPolicy",
    "OpenFile", "ReloadSignal", "PermissionsStartOnly"]

/-- Directives of sockets. -/
def socketDirectives : List String :=
  ["ListenStream", "ListenDatagram", "ListenSequentialPacket", "ListenFIFO", "ListenSpecial",
    "ListenNetlink", "ListenMessageQueue", "ListenUSBFunction", "SocketProtocol", "BindIPv6Only",
    "Backlog", "BindToDevice", "SocketUser", "SocketGroup", "SocketMode", "DirectoryMode",
    "Accept", "Writable", "FlushPending", "MaxConnections", "MaxConnectionsPerSource",
    "KeepAlive", "KeepAliveTimeSec", "KeepAliveIntervalSec", "KeepAliveProbes", "NoDelay",
    "Priority", "DeferAcceptSec", "ReceiveBuffer", "SendBuffer", "IPTOS", "IPTTL", "Mark",
    "ReusePort", "SmackLabel", "SmackLabelIPIn", "SmackLabelIPOut", "SELinuxContextFromNet",
    "PipeSize", "MessageQueueMaxMessages", "MessageQueueMessageSize", "FreeBind", "Transparent",
    "Broadcast", "PassCredentials", "PassSecurity", "PassPacketInfo", "Timestamping",
    "TCPCongestion", "ExecStartPre", "ExecStartPost", "ExecStopPre", "ExecStopPost", "TimeoutSec",
    "Service", "RemoveOnStop", "Symlinks", "FileDescriptorName", "TriggerLimitIntervalSec",
    "TriggerLimitBurst", "PollLimitIntervalSec", "PollLimitBurst"]

/-- Directives of mount points. -/
def mountDirectives : List String :=
  ["What", "Where", "Type", "Options", "SloppyOptions", "LazyUnmount", "ReadWriteOnly",
    "ForceUnmount", "DirectoryMode", "TimeoutSec"]

/-- Directives of mount points on demand. -/
def automountDirectives : List String :=
  ["Where", "ExtraOptions", "DirectoryMode", "TimeoutIdleSec"]

/-- Directives of swap space. -/
def swapDirectives : List String :=
  ["What", "Priority", "Options", "TimeoutSec"]

/-- Directives of timers. -/
def timerDirectives : List String :=
  ["OnActiveSec", "OnBootSec", "OnStartupSec", "OnUnitActiveSec", "OnUnitInactiveSec",
    "OnCalendar", "AccuracySec", "RandomizedDelaySec", "FixedRandomDelay", "OnClockChange",
    "OnTimezoneChange", "Unit", "Persistent", "WakeSystem", "RemainAfterElapse"]

/-- Directives of watched paths. -/
def pathDirectives : List String :=
  ["PathExists", "PathExistsGlob", "PathChanged", "PathModified", "DirectoryNotEmpty", "Unit",
    "MakeDirectory", "DirectoryMode", "TriggerLimitIntervalSec", "TriggerLimitBurst"]

/-- Directives of scopes. -/
def scopeDirectives : List String :=
  ["OOMPolicy", "RuntimeMaxSec", "RuntimeRandomizedExtraSec", "TimeoutStopSec"]

/-- The directives of each group. -/
def builtinGroups : List (String × List String) :=
  [("exec", execution),
   ("kill", killing),
   ("resource-control", resourceControl)]

/-- The rule of each section type. -/
def builtinSections : List (String × SectionRule) :=
  [("Unit", ⟨unitDirectives, []⟩),
   ("Install", ⟨installDirectives, []⟩),
   ("Service", ⟨serviceDirectives, ["exec", "kill", "resource-control"]⟩),
   ("Socket", ⟨socketDirectives, ["exec", "kill", "resource-control"]⟩),
   ("Mount", ⟨mountDirectives, ["exec", "kill", "resource-control"]⟩),
   ("Automount", ⟨automountDirectives, []⟩),
   ("Swap", ⟨swapDirectives, ["exec", "kill", "resource-control"]⟩),
   ("Timer", ⟨timerDirectives, []⟩),
   ("Path", ⟨pathDirectives, []⟩),
   ("Slice", ⟨[], ["resource-control"]⟩),
   ("Scope", ⟨scopeDirectives, ["kill", "resource-control"]⟩)]

/-- The table that is built in. -/
def builtin : Table where
  groups := .ofList builtinGroups
  sections := .ofList builtinSections

end UnitCheck.Table
