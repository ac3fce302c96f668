import ObjcBinding.Environment.Request
import ObjcBinding.Proofs.AddedParam
import ObjcBinding.Proofs.BoundParents
import ObjcBinding.Proofs.BulkRecording
import ObjcBinding.Proofs.ChargedClasses
import ObjcBinding.Proofs.Consistency
import ObjcBinding.Proofs.DerivedSelectors
import ObjcBinding.Proofs.DispatchTables
import ObjcBinding.Proofs.FailedResolution
import ObjcBinding.Proofs.HalfBound
import ObjcBinding.Proofs.HierarchyWalks
import ObjcBinding.Proofs.IndependentSides
import ObjcBinding.Proofs.InertSession
import ObjcBinding.Proofs.Interference
import ObjcBinding.Proofs.InternedNames
import ObjcBinding.Proofs.LexicalScopes
import ObjcBinding.Proofs.MemberList
import ObjcBinding.Proofs.MessageSends
import ObjcBinding.Proofs.MetaclassMirror
import ObjcBinding.Proofs.NearestAncestor
import ObjcBinding.Proofs.RejectedFunctions
import ObjcBinding.Proofs.RepeatedMethods
import ObjcBinding.Proofs.RepeatedResolution
import ObjcBinding.Proofs.RootMetaclass
import ObjcBinding.Proofs.SelectorHandles
import ObjcBinding.Proofs.SelectorParam
import ObjcBinding.Proofs.Stability
import ObjcBinding.Proofs.StickyStrategy
import ObjcBinding.Proofs.TargetTriples
import ObjcBinding.Request.Request
