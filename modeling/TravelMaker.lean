import TravelMaker.Route.Invariant
import TravelMaker.Review.Concurrent
import TravelMaker.Review.RouteLink
import TravelMaker.Bookmark.History
import TravelMaker.User.VectorMerge
import TravelMaker.User.Rotation
import TravelMaker.User.Withdrawn
import TravelMaker.User.Revocation
import TravelMaker.User.LoginResolved
import TravelMaker.User.ProfilePicture
import TravelMaker.Place.Mirrored
import TravelMaker.Place.Rerun
import TravelMaker.Place.Contained
import TravelMaker.Place.Resume
import TravelMaker.Place.Batches
import TravelMaker.Place.UpkeepRun
import TravelMaker.Place.Images
import TravelMaker.Place.RecommendView
import TravelMaker.Place.TagFilter
import TravelMaker.Place.SamePlaces
import TravelMaker.Place.Served
import TravelMaker.Place.TourReader
import TravelMaker.Share.Link
import TravelMaker.User.UnitVector
import TravelMaker.Place.Taggers
import TravelMaker.Place.Phone
import TravelMaker.Place.Guardrails
import TravelMaker.Place.CheckTimes
import TravelMaker.Place.FeatureDump
import TravelMaker.Place.Foretold
import TravelMaker.Place.CoreWord
import TravelMaker.Place.HybridKey
import TravelMaker.Place.QueryFilters
import TravelMaker.User.BucketUrl
import TravelMaker.User.DecayedVector
import TravelMaker.Place.Evaluation
import TravelMaker.Place.PersonalList
import TravelMaker.Place.Accounting
import TravelMaker.Quiz.Seeded
import TravelMaker.User.Community
import TravelMaker.Place.EmbeddingRerun
import TravelMaker.Review.Book
import TravelMaker.Place.Admin
