import BitsService.Server.Wiring

/-! # The configuration

What `LoadConfig` accepts, and what `main` then asks the configuration for: endpoints, size limits
and the backend of each store. Reading YAML, byte sizes and URLs is left to the libraries. -/
namespace BitsService.Configuration
open GoLib.Effect
set_option autoImplicit false

/-! ## Values -/

structure LocalBlobstoreConfig where
  pathPrefix : Bytes
  deriving DecidableEq

structure S3BlobstoreConfig where
  bucket : Bytes
  accessKeyID : Bytes
  secretAccessKey : Bytes
  region : Bytes
  host : Bytes
  s3DebugLogLevel : Bytes
  deriving DecidableEq

structure GCPBlobstoreConfig where
  bucket : Bytes
  privateKeyID : Bytes
  privateKey : Bytes
  email : Bytes
  tokenURL : Bytes
  deriving DecidableEq

structure AzureBlobstoreConfig where
  containerName : Bytes
  accountName : Bytes
  accountKey : Bytes
  environment : Bytes
  deriving DecidableEq

structure OpenstackBlobstoreConfig where
  containerName : Bytes
  domainName : Bytes
  domainId : Bytes
  username : Bytes
  apiKey : Bytes
  authURL : Bytes
  region : Bytes
  authVersion : ℤ
  internal : Bool
  tenant : Bytes
  tenantId : Bytes
  endpointType : Bytes
  tenantDomain : Bytes
  tenantDomainId : Bytes
  trustId : Bytes
  accountMetaTempURLKey : Bytes
  deriving DecidableEq

structure WebdavBlobstoreConfig where
  directoryKey : Bytes
  privateEndpoint : Bytes
  publicEndpoint : Bytes
  caCertPath : Bytes
  skipCertVerify : Bool
  username : Bytes
  password : Bytes
  deriving DecidableEq

structure AlibabaBlobstoreConfig where
  bucketName : Bytes
  apiKey : Bytes
  apiSecret : Bytes
  endpoint : Bytes
  deriving DecidableEq

/-- The section of a resource type; a nil pointer is `none`. -/
structure BlobstoreConfig where
  blobstoreType : Bytes
  localConfig : Option LocalBlobstoreConfig
  s3Config : Option S3BlobstoreConfig
  gcpConfig : Option GCPBlobstoreConfig
  azureConfig : Option AzureBlobstoreConfig
  openstackConfig : Option OpenstackBlobstoreConfig
  webdavConfig : Option WebdavBlobstoreConfig
  alibabaConfig : Option AlibabaBlobstoreConfig
  maxBodySize : Bytes
  globalMaxBodySize : Bytes
  deriving DecidableEq

structure CCUpdaterConfig where
  endpoint : Bytes
  method : Bytes
  deriving DecidableEq

structure AppStashConfig where
  minimumSize : Bytes
  maximumSize : Bytes
  deriving DecidableEq

structure Config where
  buildpacks : BlobstoreConfig
  droplets : BlobstoreConfig
  packages : BlobstoreConfig
  appStash : BlobstoreConfig
  buildpackCache : BlobstoreConfig
  publicEndpoint : Bytes
  privateEndpoint : Bytes
  port : ℤ
  maxBodySize : Bytes
  certFile : Bytes
  keyFile : Bytes
  ccUpdater : Option CCUpdaterConfig
  appStashConfig : AppStashConfig
  deriving DecidableEq

namespace Types

def localDir : Bytes := ascii "local"

def aws : Bytes := ascii "aws"

def google : Bytes := ascii "google"

def azure : Bytes := ascii "azure"

def openStack : Bytes := ascii "openstack"

def webDAV : Bytes := ascii "webdav"

def alibaba : Bytes := ascii "alibaba"

end Types

def blobstoreTypes : List Bytes :=
  [Types.localDir, Types.aws, Types.google, Types.azure, Types.openStack, Types.webDAV,
    Types.alibaba]

/-! ## Libraries -/

structure ParsedUrl where
  scheme : Bytes
  host : Bytes

/-- What is left to libraries: they return errors and do not panic. `typeKeys` are the keys of
`BlobstoreTypes` in the order in which a loop over the map meets them. -/
structure Libraries where
  unmarshal : Bytes → Except Bytes Config
  toBytes : Bytes → Except Bytes ℕ
  parseUrl : Bytes → Except Bytes ParsedUrl
  toLower : Bytes → Bytes
  typeKeys : List Bytes

variable {W : Type} (lib : Libraries)

def unexpected (e : Bytes) : GoError := .sys (ascii "Unexpected error: " ++ e)

/-! ## Accessors -/

def endpointUrl (endpoint : Bytes) : Prog GoError W ParsedUrl :=
  match lib.parseUrl endpoint with
  | .error e => raise (unexpected e)
  | .ok u => pure u

def Config.publicEndpointUrl (config : Config) : Prog GoError W ParsedUrl :=
  endpointUrl lib config.publicEndpoint

def Config.privateEndpointUrl (config : Config) : Prog GoError W ParsedUrl :=
  endpointUrl lib config.privateEndpoint

def parseSizeProperty (size : Bytes) (defaultValue : ℕ) : Prog GoError W ℕ :=
  if size = [] then pure defaultValue
  else match lib.toBytes size with
    | .error e => raise (unexpected e)
    | .ok bytes => pure bytes

def AppStashConfig.minimumSizeBytes (config : AppStashConfig) : Prog GoError W ℕ :=
  parseSizeProperty lib config.minimumSize 0

def AppStashConfig.maximumSizeBytes (config : AppStashConfig) : Prog GoError W ℕ :=
  parseSizeProperty lib config.maximumSize (2 ^ 64 - 1)

def BlobstoreConfig.maxBodySizeBytes (config : BlobstoreConfig) : Prog GoError W ℕ :=
  if config.maxBodySize = [] then
    if config.globalMaxBodySize = [] then pure 0
    else match lib.toBytes config.globalMaxBodySize with
      | .error e => raise (unexpected e)
      | .ok bytes => pure bytes
  else match lib.toBytes config.maxBodySize with
    | .error e => raise (unexpected e)
    | .ok bytes => pure bytes

/-! ## Checks -/

def verifyBlobstoreType (blobstoreType resourceType : Bytes) : List Bytes :=
  if blobstoreType ∈ blobstoreTypes then []
  else [ascii "Blobstore type '" ++ blobstoreType ++ ascii "' for " ++ resourceType ++
    ascii " is invalid. Valid blobstore types are: " ++
    (lib.typeKeys.intersperse (ascii ", ")).flatten]

/-- Is a pointer nil, or does it point to an empty value? -/
def isNilOrEmpty {α : Type} [DecidableEq α] (pointer : Option α) (empty : α) : Bool :=
  pointer = none || pointer = some empty

def blobstoreConfigIsNil (config : BlobstoreConfig) : Bool :=
  if config.blobstoreType = Types.aws then isNilOrEmpty config.s3Config ⟨[], [], [], [], [], []⟩
  else if config.blobstoreType = Types.localDir then isNilOrEmpty config.localConfig ⟨[]⟩
  else if config.blobstoreType = Types.openStack then
    isNilOrEmpty config.openstackConfig
      ⟨[], [], [], [], [], [], [], 0, false, [], [], [], [], [], [], []⟩
  else if config.blobstoreType = Types.azure then
    isNilOrEmpty config.azureConfig ⟨[], [], [], []⟩
  else if config.blobstoreType = Types.google then
    isNilOrEmpty config.gcpConfig ⟨[], [], [], [], []⟩
  else if config.blobstoreType = Types.webDAV then
    isNilOrEmpty config.webdavConfig ⟨[], [], [], [], false, [], []⟩
  else if config.blobstoreType = Types.alibaba then
    isNilOrEmpty config.alibabaConfig ⟨[], [], [], []⟩
  else true

def verifyBlobstoreConfig (config : BlobstoreConfig) (resourceType : Bytes) : List Bytes :=
  if config.blobstoreType = [] then []
  else if blobstoreConfigIsNil config then
    [resourceType ++ ascii " blobstore config is missing " ++ config.blobstoreType ++
      ascii " config"]
  else []

/-- The checks of `public_endpoint` and `private_endpoint`. -/
def endpointErrors (key endpoint : Bytes) : List Bytes :=
  if endpoint = [] then [key ++ ascii " must not be empty"]
  else match lib.parseUrl endpoint with
    | .error e => [key ++ ascii " is invalid. Caused by:" ++ e]
    | .ok u =>
      (if u.host = [] then [key ++ ascii " host must not be empty"] else []) ++
        (if u.scheme ≠ ascii "https" then [key ++ ascii " must use https://"] else [])

def maxBodySizeErrors (size : Bytes) : List Bytes :=
  if size = [] then []
  else match lib.toBytes size with
    | .error e => [ascii "max_body_size is invalid. Caused by: " ++ e]
    | .ok _ => []

def ccUpdaterErrors : Option CCUpdaterConfig → List Bytes
  | none => []
  | some updater =>
    match lib.parseUrl updater.endpoint with
    | .error e => [ascii "cc_updater.endpoint is invalid. Caused by:" ++ e]
    | .ok u => if u.host = [] then [ascii "cc_updater.endpoint host must not be empty"] else []

def basicErrors (config : Config) : List Bytes :=
  (if config.port = 0 then [ascii "port must be an integer > 0"] else []) ++
    endpointErrors lib (ascii "public_endpoint") config.publicEndpoint ++
    endpointErrors lib (ascii "private_endpoint") config.privateEndpoint ++
    (if config.certFile = [] then [ascii "cert_file must not be empty"] else []) ++
    (if config.keyFile = [] then [ascii "key_file must not be empty"] else []) ++
    maxBodySizeErrors lib config.maxBodySize ++
    ccUpdaterErrors lib config.ccUpdater ++
    verifyBlobstoreType lib config.droplets.blobstoreType (ascii "droplets") ++
    verifyBlobstoreType lib config.packages.blobstoreType (ascii "packages") ++
    verifyBlobstoreType lib config.appStash.blobstoreType (ascii "app_stash") ++
    verifyBlobstoreType lib config.buildpacks.blobstoreType (ascii "buildpacks") ++
    verifyBlobstoreConfig config.droplets (ascii "droplets") ++
    verifyBlobstoreConfig config.packages (ascii "packages") ++
    verifyBlobstoreConfig config.buildpacks (ascii "buildpacks") ++
    verifyBlobstoreConfig config.appStash (ascii "app_stash")

def BlobstoreConfig.hasBackend (config : BlobstoreConfig) : Bool :=
  config.azureConfig.isSome || config.gcpConfig.isSome || config.localConfig.isSome ||
    config.openstackConfig.isSome || config.s3Config.isSome || config.alibabaConfig.isSome ||
    config.webdavConfig.isSome

def buildpackCacheErrors (buildpackCache : BlobstoreConfig) : List Bytes :=
  if buildpackCache.hasBackend then
    [ascii "buildpack_cache must not have a blobstore configured, as it only exists to allow to configure max_body_size. As blobstore, the droplet blobstore is used."]
  else []

def directoryKeyErrors (name : Bytes) (config : BlobstoreConfig) : Prog GoError W (List Bytes) :=
  if config.blobstoreType = Types.webDAV then
    match config.webdavConfig with
    | none => raise .nilDereference
    | some webdav =>
      pure (if webdav.directoryKey = [] then
        [name ++ ascii " WebDAV blobstore must have a directory_key configured."] else [])
  else pure []

/-- The checks that are made once the basic ones have succeeded. -/
def laterErrors (config : Config) : Prog GoError W (List Bytes) := do
  let packages ← directoryKeyErrors (ascii "Packages") config.packages
  let droplets ← directoryKeyErrors (ascii "Droplets") config.droplets
  let buildpacks ← directoryKeyErrors (ascii "Buildpacks") config.buildpacks
  let appStash ← directoryKeyErrors (ascii "AppStash") config.appStash
  let minimum ← config.appStashConfig.minimumSizeBytes lib
  let maximum ← config.appStashConfig.maximumSizeBytes lib
  pure (buildpackCacheErrors config.buildpackCache ++ packages ++ droplets ++ buildpacks ++
    appStash ++ if maximum < minimum then
      [ascii "app_stash_config.maximum_size must be greater than app_stash_config.minimum_size"]
    else [])

/-! ## Loading -/

def BlobstoreConfig.inherit (config : BlobstoreConfig) (maxBodySize : Bytes) : BlobstoreConfig :=
  { config with globalMaxBodySize := maxBodySize }

def BlobstoreConfig.lowerCaseType (config : BlobstoreConfig) : BlobstoreConfig :=
  { config with blobstoreType := lib.toLower config.blobstoreType }

/-- What is changed in a configuration before it is checked. -/
def Config.prepare (config : Config) : Config :=
  { config with
    droplets := (config.droplets.inherit config.maxBodySize).lowerCaseType lib
    packages := (config.packages.inherit config.maxBodySize).lowerCaseType lib
    appStash := (config.appStash.inherit config.maxBodySize).lowerCaseType lib
    buildpacks := (config.buildpacks.inherit config.maxBodySize).lowerCaseType lib
    buildpackCache := config.buildpackCache.inherit config.maxBodySize
    ccUpdater := config.ccUpdater.map fun updater => { updater with method := ascii "PATCH" } }

def errorInConfigValues (errs : List Bytes) : Bytes :=
  ascii "error in config values: " ++ (errs.intersperse (ascii "; ")).flatten

/-- `LoadConfig`, once the file has been parsed. -/
def checkConfig (config : Config) : Prog GoError W (Except Bytes Config) :=
  if basicErrors lib config ≠ [] then
    -- the later checks are not made when basic ones fail
    pure (.error (errorInConfigValues (basicErrors lib config)))
  else do
    let errs ← laterErrors lib config
    if errs ≠ [] then pure (.error (errorInConfigValues errs))
    else pure (.ok config)

/-- Opening the file fails, or reading it fails, or there is its content. -/
def loadConfig (file : Except Bytes (Except Bytes Bytes)) :
    Prog GoError W (Except Bytes Config) :=
  match file with
  | .error e => pure (.error (ascii "error opening config. Caused by: " ++ e))
  | .ok (.error e) => pure (.error (ascii "error reading config. Caused by: " ++ e))
  | .ok (.ok content) =>
    match lib.unmarshal content with
    | .error e => pure (.error (ascii "error parsing config. Caused by: " ++ e))
    | .ok config => checkConfig lib (config.prepare lib)

/-! ## The switches of `main` -/

def deref {α β : Type} (pointer : Option α) (k : α → β) : Prog GoError W β :=
  match pointer with
  | none => raise .nilDereference
  | some a => pure (k a)

/-- The backend that `createBlobstoreAndSignURLHandler` and its siblings choose for a section. -/
def BlobstoreConfig.selectBackend (config : BlobstoreConfig) :
    Prog GoError W BitsService.BlobstoreConfig :=
  if config.blobstoreType = Types.localDir then deref config.localConfig fun _ => ⟨.localDir, []⟩
  else if config.blobstoreType = Types.aws then deref config.s3Config fun _ => ⟨.aws, []⟩
  else if config.blobstoreType = Types.google then deref config.gcpConfig fun _ => ⟨.google, []⟩
  else if config.blobstoreType = Types.azure then deref config.azureConfig fun _ => ⟨.azure, []⟩
  else if config.blobstoreType = Types.openStack then
    deref config.openstackConfig fun _ => ⟨.openStack, []⟩
  else if config.blobstoreType = Types.webDAV then
    deref config.webdavConfig fun webdav => ⟨.webDAV, webdav.directoryKey⟩
  else if config.blobstoreType = Types.alibaba then
    deref config.alibabaConfig fun _ => ⟨.alibaba, []⟩
  else raise (.sys (ascii "blobstoreConfig is invalid."))

end BitsService.Configuration
